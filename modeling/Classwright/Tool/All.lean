import Classwright.Shell.Program
import Classwright.Tool.Compare
import Classwright.Tool.Count
import Classwright.Tool.Digest
import Classwright.Tool.Dump
import Classwright.Tool.Expr
import Classwright.Tool.Files
import Classwright.Tool.Find.Run
import Classwright.Tool.Listing
import Classwright.Tool.Machine
import Classwright.Tool.Names
import Classwright.Tool.Search
import Classwright.Tool.Sed.Run
import Classwright.Tool.Show
import Classwright.Tool.Sort

namespace Classwright.Tool

open Shell

section

variable {m : Type → Type} [Monad m]

def ended (status : Nat) : Action m := fun _ => return status

def plain : List (String × Action m) := [
  ("[", Builtin.bracket), ("arch", saying "x86_64"), ("base64", base64), ("basename", basename),
  ("cat", cat), ("chmod", chmod), ("cksum", cksum), ("cmp", cmp), ("comm", comm), ("cp", cp),
  ("cut", cut), ("date", date), ("dd", dd), ("diff", diff), ("dirname", dirname), ("echo", echo),
  ("egrep", grepWith ["E"]), ("expr", expr), ("false", ended 1), ("fgrep", grepWith ["F"]),
  ("fold", fold), ("grep", grepWith []), ("head", head), ("hostname", saying "localhost"),
  ("id", identity), ("install", install), ("ln", ln), ("logname", ended 1), ("ls", ls),
  ("md5sum", sumWith "md5sum" Digest.md5), ("mkdir", mkdir), ("mktemp", mktemp), ("mv", mv),
  ("nl", nl), ("nproc", saying "1"), ("od", od), ("paste", paste), ("printenv", printenv),
  ("printf", Builtin.printf), ("pwd", Builtin.printDirectory), ("readlink", readlink),
  ("realpath", realpath), ("rev", rev), ("rm", rm), ("rmdir", rmdir), ("sed", sed), ("seq", seq),
  ("sha1sum", sumWith "sha1sum" Digest.sha1),
  ("sha256sum", sumWith "sha256sum" (Digest.Family.sum .sha256)),
  ("sha512sum", sumWith "sha512sum" (Digest.Family.sum .sha512)), ("sleep", sleep), ("sort", sort),
  ("split", split), ("stat", stat), ("sum", sum), ("sync", ended 0), ("tac", tac), ("tail", tail),
  ("tee", tee), ("test", Builtin.test), ("touch", touch), ("tr", tr), ("true", ended 0),
  ("truncate", truncate), ("tty", tty), ("uname", uname), ("uniq", uniq), ("unlink", unlink),
  ("wc", wc), ("whoami", saying "root"), ("yes", yes)]

def running (e : Engine m) : List (String × Action m) := [
  ("dash", shellProgram e "dash"), ("env", env e), ("find", find e), ("nice", nice e),
  ("nohup", nohup e),
  ("sh", shellProgram e "sh"), ("timeout", timeout e), ("xargs", xargs e)]

def named? (e : Engine m) (name : String) : Option (Action m) :=
  let known := running e ++ plain
  if name == "which" then some (which fun other => other == name || known.any (·.1 == other))
  else known.lookup name

end

end Classwright.Tool
