namespace Classwright.Template

-- The names and values that a template is filled with; the first entry of a name counts.
abbrev Slots := List (String × String)

-- The slot that starts after an opening brace: the number of characters up to and including the
-- closing brace, and the value given for the name between the braces.
def slot? (slots : Slots) (rest : List Char) : Option (Nat × List Char) :=
  let name := rest.takeWhile (· != '}')
  if name.length < rest.length then
    (slots.lookup (.ofList name)).map fun value => (name.length + 1, value.toList)
  else none

-- Fills the slots of a template whose next `skip` characters belong to a slot already filled.
def fillChars (slots : Slots) : Nat → List Char → List Char
  | _, [] => []
  | skip + 1, _ :: cs => fillChars slots skip cs
  | 0, c :: cs =>
    if c == '{' then
      match slot? slots cs with
      | some (length, value) => value ++ fillChars slots length cs
      | none => c :: fillChars slots 0 cs
    else c :: fillChars slots 0 cs

-- Replaces the slots of `template` that `slots` names. Everything else is copied, so braces of code
-- fragments stay as they are.
def fill (template : String) (slots : Slots) : String :=
  .ofList (fillChars slots 0 template.toList)

end Classwright.Template
