namespace Classwright.Swagger

inductive UrlPart where
  | literal (text : String)
  | parameter (name : String)
  deriving Repr, DecidableEq

namespace UrlPart

-- A literal, unless it is empty.
def ofText (text : List Char) : List UrlPart :=
  if text.isEmpty then [] else [.literal (.ofList text)]

theorem length_lt_of_dropWhile {p : Char → Bool} {cs rest : List Char} {c : Char}
    (h : cs.dropWhile p = c :: rest) : rest.length < cs.length := by
  have shorter := (List.dropWhile_sublist (p := p) (l := cs)).length_le
  rw [h, List.length_cons] at shorter
  omega

def ofChars (cs : List Char) : List UrlPart :=
  match opened : cs.dropWhile (· != '{') with
  | [] => ofText cs
  | _ :: inner =>
    match closed : inner.dropWhile (· != '}') with
    | [] => ofText cs
    | _ :: rest =>
      have : rest.length < cs.length :=
        Nat.lt_trans (length_lt_of_dropWhile closed) (length_lt_of_dropWhile opened)
      ofText (cs.takeWhile (· != '{')) ++
        .parameter (.ofList (inner.takeWhile (· != '}'))) :: ofChars rest
termination_by cs.length

def ofUrl (url : String) : List UrlPart := ofChars url.toList

def text : UrlPart → String
  | .literal text => text
  | .parameter name => "\x7b" ++ name ++ "\x7d"

end UrlPart

end Classwright.Swagger
