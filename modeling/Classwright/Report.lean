import Classwright.Error

namespace Classwright

-- A result that comes with warnings. The warnings on the way to a failure are kept.
structure Reported (α : Type) where
  warnings : List Warning
  result : Except Error α

namespace Reported

def ofExcept {α : Type} (result : Except Error α) : Reported α := ⟨[], result⟩

protected def bind {α β : Type} (x : Reported α) (f : α → Reported β) : Reported β :=
  match x.result with
  | .ok a => ⟨x.warnings ++ (f a).warnings, (f a).result⟩
  | .error e => ⟨x.warnings, .error e⟩

instance : Monad Reported where
  pure a := ⟨[], .ok a⟩
  bind := Reported.bind

end Reported

end Classwright
