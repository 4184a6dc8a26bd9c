import Classwright.Code.Statement
import Classwright.Language.All
import Classwright.Proofs.Containment
import Mathlib.Data.List.TakeWhile
import Mathlib.Tactic.Ring

namespace Classwright

theorem Text.eq_nil_of_splitOnChar {mark : Char} {cs : List Char} (h : splitOnChar mark cs = [[]]) :
    cs = [] := by
  cases cs
  case nil => rfl
  case cons c cs =>
    rw [splitOnChar] at h
    split at h
    case isTrue  => simp [splitOnChar_ne_nil] at h
    case isFalse => split at h <;> simp at h

theorem Text.lines_ne_nil {text : String} (h : text ≠ "") : lines text ≠ [] := by
  rw [lines, ne_eq, List.map_eq_nil_iff, lineChars]
  split
  case h_1 hs => exact absurd (List.reverse_eq_nil_iff.mp hs) splitOnChar_ne_nil
  case h_2 last ended hs =>
    split
    case isFalse => simp
    case isTrue hl =>
      -- The text would have no line if its only part were empty.
      intro he
      have he : ended = [] := by simpa using he
      rw [List.reverse_eq_iff, he, List.isEmpty_iff.mp hl] at hs
      exact h <| String.toList_eq_nil_iff.mp <| eq_nil_of_splitOnChar hs

namespace Code

theorem indentation_add (lex : Lexicon) (m n : Nat) :
    indentation lex (m + n) = indentation lex m ++ indentation lex n := by
  rw [indentation, ← List.replicate_append_replicate, String.join_append]
  rfl

theorem map_indentation_add (lex : Lexicon) (m n : Nat) (lines : List String) :
    lines.map (indentation lex (m + n) ++ ·) =
      (lines.map (indentation lex n ++ ·)).map (indentation lex m ++ ·) := by
  simp [indentation_add, String.append_assoc]

theorem indentation_one (lex : Lexicon) : indentation lex 1 = lex.indent := by
  simp [indentation]

namespace Statement

theorem headerLines_add (lex : Lexicon) (m n : Nat) (header : String) :
    headerLines lex (m + n) header = (headerLines lex n header).map (indentation lex m ++ ·) :=
  map_indentation_add lex m n _

theorem fillerLines_add (lex : Lexicon) (m n : Nat) :
    fillerLines lex (m + n) = (fillerLines lex n).map (indentation lex m ++ ·) := by
  cases h : lex.emptyBlock <;> simp [fillerLines, h, indentation_add, String.append_assoc]

theorem closingLines_add (lex : Lexicon) (m n : Nat) :
    closingLines lex (m + n) = (closingLines lex n).map (indentation lex m ++ ·) := by
  cases h : lex.blockClose <;> simp [closingLines, h, indentation_add, String.append_assoc]

mutual

-- What stands `m` levels deeper is printed behind the indentation of `m` levels.
theorem printLines_add (lex : Lexicon) (m : Nat) : ∀ (n : Nat) (s : Statement),
    printLines lex (m + n) s = (printLines lex n s).map (indentation lex m ++ ·)
  | n, .line _ => by
    simp only [printLines]
    exact map_indentation_add lex m n _
  | n, .block header body => by
    simp only [printLines, List.map_append, headerLines_add, closingLines_add, Nat.add_assoc,
      printAll_add lex m (n + 1) body]
    split <;> simp [fillerLines_add]

theorem printAll_add (lex : Lexicon) (m : Nat) : ∀ (n : Nat) (body : List Statement),
    printAll lex (m + n) body = (printAll lex n body).map (indentation lex m ++ ·)
  | _, []        => rfl
  | n, s :: rest => by
    simp only [printAll, List.map_append, printLines_add lex m n s, printAll_add lex m n rest]

end

theorem printLines_eq_map (lex : Lexicon) (depth : Nat) (s : Statement) :
    printLines lex depth s = (printLines lex 0 s).map (indentation lex depth ++ ·) :=
  printLines_add lex depth 0 s

theorem printAll_append (lex : Lexicon) (depth : Nat) (body rest : List Statement) :
    printAll lex depth (body ++ rest) = printAll lex depth body ++ printAll lex depth rest := by
  induction body
  case nil          => rfl
  case cons s _ ih => simp [printAll, ih]

def lastLine (header : String) : String := (Text.lines header).getLast?.getD ""

-- The line that opens a block.
def opener (lex : Lexicon) (depth : Nat) (header : String) : String :=
  indentation lex depth ++ (lastLine header ++ lex.blockOpen)

theorem headerLines_eq (lex : Lexicon) (depth : Nat) (header : String) :
    headerLines lex depth header =
      (Text.lines header).dropLast.map (indentation lex depth ++ ·) ++ [opener lex depth header] := by
  simp [headerLines, opener, lastLine]

-- A statement at `depth` opens a block with `header` in its line `i`, at the depth `k`.
inductive Opens (lex : Lexicon) : Nat → Statement → Nat → Nat → String → Prop
  | here {depth header body} :
    Opens lex depth (.block header body) ((headerLines lex depth header).length - 1) depth header
  | inside {depth header before s after i k h} : Opens lex (depth + 1) s i k h →
    Opens lex depth (.block header (before ++ s :: after))
      ((headerLines lex depth header).length + ((printAll lex (depth + 1) before).length + i)) k h

mutual

-- The texts of the statements that are lines.
def codes : Statement → List String
  | .line code    => [code]
  | .block _ body => codesOfAll body

def codesOfAll : List Statement → List String
  | []        => []
  | s :: rest => codes s ++ codesOfAll rest

end

variable {lex : Lexicon} {s : Statement} {body : List Statement} {header text : String}
  {depth i k : Nat} {lines : List String}

theorem codes_subset_codesOfAll (h : s ∈ body) : codes s ⊆ codesOfAll body := by
  induction body
  case nil => contradiction
  case cons t body ih =>
    rw [codesOfAll]
    cases h
    case head   => exact List.subset_append_left _ _
    case tail h => exact List.subset_append_of_subset_right _ <| ih h

theorem printLines_ne_nil (h : ∀ code ∈ codes s, code ≠ "") : printLines lex depth s ≠ [] := by
  cases s
  case line code =>
    simp only [printLines, ne_eq, List.map_eq_nil_iff]
    exact Text.lines_ne_nil <| h code <| by simp [codes]
  case block header body => simp [printLines, headerLines_eq]

-- Of the lines, the one at `i` opens a block at the depth `k`, and the next one stands deeper.
def OpensAt (lex : Lexicon) (lines : List String) (i k : Nat) (header : String) : Prop :=
  lines[i]? = some (opener lex k header) ∧
    ∃ rest, lines[i + 1]? = some (indentation lex (k + 1) ++ rest)

theorem OpensAt.append (h : OpensAt lex lines i k header) (more : List String) :
    OpensAt lex (lines ++ more) i k header := by
  obtain ⟨ho, rest, hr⟩ := h
  have ⟨hi, _⟩ := List.getElem?_eq_some_iff.mp ho
  have ⟨hn, _⟩ := List.getElem?_eq_some_iff.mp hr
  refine ⟨?_, rest, ?_⟩
  · rw [List.getElem?_append_left hi, ho]
  · rw [List.getElem?_append_left hn, hr]

theorem OpensAt.of_append (h : OpensAt lex lines i k header) (before : List String) :
    OpensAt lex (before ++ lines) (before.length + i) k header := by
  obtain ⟨ho, rest, hr⟩ := h
  refine ⟨?_, rest, ?_⟩
  · rw [List.getElem?_append_right <| by omega, Nat.add_sub_cancel_left, ho]
  · rw [List.getElem?_append_right <| by omega, Nat.add_assoc, Nat.add_sub_cancel_left, hr]

-- The characters that indent a line.
def isIndent (c : Char) : Bool := c == ' ' || c == '\t'

-- How far a line is indented.
def margin (line : String) : Nat := (line.toList.takeWhile isIndent).length

theorem margin_append {blanks : String} (h : ∀ c ∈ blanks.toList, isIndent c) (line : String) :
    margin (blanks ++ line) = blanks.length + margin line := by
  rw [margin, String.toList_append, List.takeWhile_append_of_pos h, List.length_append,
    String.length_toList, margin]

theorem margin_append_of_head (h : ∀ c ∈ text.toList.head?, isIndent c = false) (line : String) :
    margin (line ++ text) = margin line := by
  have ht : text.toList.takeWhile isIndent = [] := by
    cases hc : text.toList
    case nil => rfl
    case cons c cs => simp [h c <| by simp [hc]]
  rw [margin, margin, String.toList_append, List.takeWhile_append, ht]
  split
  case isTrue he => simp [he]
  case isFalse   => rfl

theorem margin_indentation (h : ∀ c ∈ lex.indent.toList, isIndent c) (k : Nat) (line : String) :
    margin (indentation lex k ++ line) = k * lex.indent.length + margin line := by
  induction k
  case zero => simp [indentation]
  case succ k ih =>
    rw [Nat.add_comm, indentation_add, String.append_assoc, indentation_one, margin_append h, ih]
    ring

-- Lexicons in which a block ends where the indentation does.
structure EndsByIndentation (lex : Lexicon) : Prop where
  unclosed : lex.blockClose = none
  filled   : lex.emptyBlock ≠ none
  indent   : ∀ c ∈ lex.indent.toList, isIndent c
  opening  : ∀ c ∈ lex.blockOpen.toList.head?, isIndent c = false

theorem endsByIndentation {language : Language} (h : language.lexicon.blockClose = none) :
    EndsByIndentation language.lexicon := by
  cases language
  case python =>
    exact {
      unclosed := rfl
      filled   := nofun
      indent   := by simp [Language.lexicon, Lexicon.python, isIndent]
      opening  := by simp [Language.lexicon, Lexicon.python, isIndent]
    }
  all_goals nomatch h

theorem exists_first_printLines (lex : Lexicon) (depth : Nat) (h : ∀ code ∈ codes s, code ≠ "") :
    ∃ rest, (printLines lex depth s)[0]? = some (indentation lex depth ++ rest) := by
  obtain ⟨rest, more, hp⟩ := List.exists_cons_of_ne_nil <| printLines_ne_nil h
  exact ⟨rest, by rw [printLines_eq_map, hp]; rfl⟩

-- What stands between the line that opens a block and the end of the block.
def bodyLines (lex : Lexicon) (depth : Nat) (body : List Statement) : List String :=
  (if body.isEmpty then fillerLines lex depth else []) ++ printAll lex (depth + 1) body

theorem printLines_block (hl : EndsByIndentation lex) (depth : Nat) (header : String)
    (body : List Statement) : printLines lex depth (.block header body) =
      headerLines lex depth header ++ bodyLines lex depth body := by
  rw [printLines, closingLines, hl.unclosed, List.append_nil, List.append_assoc, bodyLines]

theorem bodyLines_append_cons (lex : Lexicon) (depth : Nat) (before : List Statement) (s : Statement)
    (after : List Statement) : bodyLines lex depth (before ++ s :: after) =
      printAll lex (depth + 1) before ++
        (printLines lex (depth + 1) s ++ printAll lex (depth + 1) after) := by
  simp [bodyLines, printAll_append, printAll]

-- A block begins a level deeper than it was opened, be it only with the filler.
theorem exists_first_bodyLines (hl : EndsByIndentation lex) (depth : Nat)
    (h : ∀ code ∈ codesOfAll body, code ≠ "") :
    ∃ rest, (bodyLines lex depth body)[0]? = some (indentation lex (depth + 1) ++ rest) := by
  cases body
  case nil =>
    obtain ⟨filler, hf⟩ := Option.ne_none_iff_exists'.mp hl.filled
    exact ⟨filler, by simp [bodyLines, fillerLines, hf, indentation_add, indentation_one]⟩
  case cons s body =>
    obtain ⟨rest, hr⟩ := exists_first_printLines lex (depth + 1) <| fun code hc =>
      h code <| codes_subset_codesOfAll (List.mem_cons_self ..) hc
    have ⟨hi, _⟩ := List.getElem?_eq_some_iff.mp hr
    have hb : bodyLines lex depth (s :: body) = printLines lex (depth + 1) s ++ _ :=
      bodyLines_append_cons lex depth [] s body
    exact ⟨rest, by rw [hb, List.getElem?_append_left hi, hr]⟩

-- The header is followed by its own body. A block further inside is moved along by the lines before it, and
-- those after it come too late to stand between.
theorem opensAt_of_opens (hl : EndsByIndentation lex) (ho : Opens lex depth s i k header)
    (hc : ∀ code ∈ codes s, code ≠ "") : OpensAt lex (printLines lex depth s) i k header := by
  induction ho
  case here depth header body =>
    obtain ⟨rest, hr⟩ := exists_first_bodyLines hl depth hc
    rw [printLines_block hl, headerLines_eq, List.length_append, List.length_singleton,
      Nat.add_sub_cancel, List.append_assoc]
    exact OpensAt.of_append (i := 0) ⟨rfl, rest, hr⟩ _
  case inside depth header before s after i k h _ ih =>
    have hs := ih fun code hm => hc code <| codes_subset_codesOfAll (by simp) hm
    rw [printLines_block hl, bodyLines_append_cons]
    exact ((hs.append _).of_append _).of_append _

theorem margin_opener_le (hl : EndsByIndentation lex) (header rest : String) :
    margin (opener lex k header) + lex.indent.length ≤
      margin (indentation lex (k + 1) ++ rest) + margin (lastLine header) := by
  rw [opener, margin_indentation hl.indent, margin_indentation hl.indent,
    margin_append_of_head hl.opening, Nat.succ_mul]
  omega

-- A statement is printed alike at every depth. Without a token at the end of a block, and if no statement
-- is an empty text, the line after one that opens a block has a further level in front of it. So it is
-- indented deeper, up to the blanks with which the last line of the header begins itself.
theorem indented_printLines (language : Language) (depth : Nat) (s : Statement) :
    printLines language.lexicon depth s =
      (printLines language.lexicon 0 s).map (indentation language.lexicon depth ++ ·) ∧
    (language.lexicon.blockClose = none → (∀ code ∈ codes s, code ≠ "") →
      ∀ i k header, Opens language.lexicon depth s i k header →
        ∃ rest, let next := indentation language.lexicon (k + 1) ++ rest
          (printLines language.lexicon depth s)[i]? = some (opener language.lexicon k header) ∧
          (printLines language.lexicon depth s)[i + 1]? = some next ∧
          margin (opener language.lexicon k header) + language.lexicon.indent.length ≤
            margin next + margin (lastLine header)) := by
  refine ⟨printLines_eq_map .., fun hn hc i k header ho => ?_⟩
  have hl := endsByIndentation hn
  obtain ⟨hi, rest, hr⟩ := opensAt_of_opens hl ho hc
  exact ⟨rest, hi, hr, margin_opener_le hl header rest⟩

def petLoop : Statement := .block "for pet in pets" [.line "save(pet)", .block "if pet" []]

-- The second block of the loop is filled two levels deeper than the loop stands.
theorem indented_petLoop :
    Language.python.lexicon.blockClose = none ∧ (∀ code ∈ codes petLoop, code ≠ "") ∧
    Opens Language.python.lexicon 1 petLoop 2 2 "if pet" ∧
    printLines Language.python.lexicon 1 petLoop =
      (printLines Language.python.lexicon 0 petLoop).map (indentation Language.python.lexicon 1 ++ ·) ∧
    ∃ rest, (printLines Language.python.lexicon 1 petLoop)[2]? = some "        if pet:" ∧
      (printLines Language.python.lexicon 1 petLoop)[3]? =
        some (indentation Language.python.lexicon 3 ++ rest) := by
  have hc : ∀ code ∈ codes petLoop, code ≠ "" := by simp [petLoop, codes, codesOfAll]
  have ho : Opens Language.python.lexicon 1 petLoop 2 2 "if pet" :=
    @Opens.inside _ _ _ [.line "save(pet)"] _ [] _ _ _ .here
  obtain ⟨hp, h⟩ := indented_printLines .python 1 petLoop
  obtain ⟨rest, hi, hr, _⟩ := h rfl hc 2 2 "if pet" ho
  exact ⟨rfl, hc, ho, hp, rest, hi, hr⟩

-- The header of a block with a condition that is broken over two lines.
def brokenHeader : String := "if (a\n        and b)"

-- The line that opens the block has blanks of its own, so what follows stands less deep.
theorem not_deeper_brokenHeader :
    Language.python.lexicon.blockClose = none ∧ codes (.block brokenHeader []) = [] ∧
    Opens Language.python.lexicon 0 (.block brokenHeader []) 1 0 brokenHeader ∧
    printLines Language.python.lexicon 0 (.block brokenHeader []) =
      ["if (a", "        and b):", "    pass"] ∧
    ¬margin "        and b):" + Language.python.lexicon.indent.length ≤ margin "    pass" := by
  exact ⟨rfl, rfl, .here, by decide, by decide⟩

end Statement

end Code

end Classwright
