import Classwright.Language.Java
import Classwright.Language.Kotlin
import Classwright.Language.Python
import Classwright.Language.TypeScript

namespace Classwright.Language

def lexicon : Language → Lexicon
  | .java => .java
  | .kotlin => .kotlin
  | .typescript => .typescript
  | .python => .python

end Classwright.Language
