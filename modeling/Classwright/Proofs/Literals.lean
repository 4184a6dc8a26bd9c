import Classwright.Language.All
import Classwright.Proofs.Text.Literal
import Mathlib.Data.List.Infix

namespace Classwright

-- Of the letters of Unicode only those of ASCII matter here.
structure Letters where
  isLetter : Char → Bool
  ascii    : ∀ c, c.toNat < 128 → isLetter c = c.isAlpha

namespace Letters

def latin : Letters where
  isLetter  := Char.isAlpha
  ascii _ _ := rfl

-- A name between backticks is not empty and ends on its line.
def closesName (empty : Bool) : List Char → Bool
  | []      => false
  | c :: cs => if c = '\x60' then !empty else c ∉ ['\n', '\r'] && closesName false cs

-- What follows a dollar sign makes it a template if it is a name or an opening brace.
def beginsTemplate (letters : Letters) : List Char → Bool
  | []      => false
  | c :: cs => letters.isLetter c || c ∈ ['_', '{'] || c = '\x60' && closesName true cs

end Letters

namespace Language

open Lexicon Letters

def lineEnds : Language → List Char
  | .typescript => ['\n', '\r', '\u2028', '\u2029']
  | _           => ['\n', '\r']

-- What no literal has as it is. Line and paragraph separators end a line in TypeScript, but no literal.
def barred : Language → List Char
  | .python => ['\n', '\r', '\x00']
  | _       => ['\n', '\r']

-- The escapes of one character, and what they stand for.
def escapes : Language → List (Char × Char)
  | .java       =>
    [('b', '\x08'), ('s', ' '), ('t', '\t'), ('n', '\n'), ('f', '\x0c'), ('r', '\r'), ('"', '"'),
      ('\'', '\''), ('\\', '\\')]
  | .kotlin     =>
    [('t', '\t'), ('b', '\x08'), ('n', '\n'), ('r', '\r'), ('\'', '\''), ('"', '"'), ('\\', '\\'),
      ('$', '$')]
  | .typescript =>
    [('b', '\x08'), ('t', '\t'), ('n', '\n'), ('v', '\x0b'), ('f', '\x0c'), ('r', '\r')]
  | .python     =>
    [('\\', '\\'), ('\'', '\''), ('"', '"'), ('a', '\x07'), ('b', '\x08'), ('f', '\x0c'),
      ('n', '\n'), ('r', '\r'), ('t', '\t'), ('v', '\x0b')]

-- What an escape by a code or a name, or one that joins two lines, begins with. No literal that is
-- written here has one, so that none of them is read.
def longEscapes : Language → List Char
  | .java       => "u01234567".toList
  | .kotlin     => ['u']
  | .typescript => "xu0123456789".toList ++ lineEnds .typescript
  | .python     => "xuUN01234567".toList ++ barred .python

-- An escape that is not listed is an error in Java and Kotlin. TypeScript drops its backslash and
-- Python keeps it.
def readEscape (language : Language) (c : Char) : Option (List Char) :=
  if c ∈ language.longEscapes then none
  else match language.escapes.lookup c, language with
    | some d, _           => some [d]
    | none  , .typescript => some [c]
    | none  , .python     => some ['\\', c]
    | none  , _           => none

variable (letters : Letters) (language : Language)

-- A literal breaks at the first character of such a text.
def breaks : List Char → Bool
  | []      => false
  | c :: cs =>
    c ∈ language.barred || language = .kotlin && c = '$' && letters.beginsTemplate cs

-- What is behind the first quote of a literal, read to its last one.
def readText (escaped : Bool) : List Char → Option (List Char)
  | []      => none
  | c :: cs =>
    if escaped then (language.readEscape c).bind fun text => (readText false cs).map (text ++ ·)
    else if c = '"' then if cs = [] then some [] else none
    else if c = '\\' then readText true cs
    else if breaks letters language (c :: cs) then none
    else (readText false cs).map (c :: ·)

def readLiteral (literal : String) : Option String :=
  match literal.toList with
  | '"' :: cs => (readText letters language false cs).map .ofList
  | _         => none

-- A text with no place where its literal breaks.
def IsPlain (text : String) : Prop :=
  ∀ cs ∈ text.toList.tails, ¬breaks letters language cs

instance (text : String) : Decidable (IsPlain letters language text) :=
  List.decidableBAll _ _

def HasLineEnd (text : String) : Prop :=
  ∃ c ∈ text.toList, c ∈ language.lineEnds

instance (text : String) : Decidable (HasLineEnd language text) :=
  List.decidableBEx _ _

variable {letters language} {lex : Lexicon} {c : Char} {cs text xs : List Char} {s t : String}
  {empty : Bool}

theorem closesName_escaped :
    closesName empty (cs.flatMap escapeChar ++ ['"']) = closesName empty cs := by
  induction cs generalizing empty
  case nil => rfl
  case cons c cs ih =>
    rcases escapeChar_cases c with ⟨rfl | rfl, h⟩ | ⟨-, -, h⟩ <;>
      simp [h, closesName, ih]

-- A backslash begins no name, so what is escaped begins a template only where it is one unescaped.
theorem beginsTemplate_escaped :
    letters.beginsTemplate (cs.flatMap escapeChar ++ ['"']) = letters.beginsTemplate cs := by
  have hq : letters.isLetter '"' = false := letters.ascii '"' (by decide)
  have hb : letters.isLetter '\\' = false := letters.ascii '\\' (by decide)
  cases cs
  case nil => simp [beginsTemplate, hq]
  case cons c cs =>
    rcases escapeChar_cases c with ⟨rfl | rfl, h⟩ | ⟨-, -, h⟩ <;>
      simp [h, beginsTemplate, closesName_escaped, hq, hb]

theorem breaks_escaped :
    breaks letters language (c :: (cs.flatMap escapeChar ++ ['"'])) =
      breaks letters language (c :: cs) := by
  rw [breaks, breaks, beginsTemplate_escaped]

theorem readEscape_of_escaped (h : c = '\\' ∨ c = '"') : readEscape language c = some [c] := by
  rcases h with rfl | rfl <;> cases language <;> decide

theorem not_breaks_of_escaped (h : c = '\\' ∨ c = '"') : ¬breaks letters language (c :: cs) := by
  rcases h with rfl | rfl <;> cases language <;> simp [breaks, barred]

-- One character is read from what it is written as, unless the literal breaks at it.
theorem readText_escapeChar_append :
    readText letters language false (escapeChar c ++ xs) =
      if breaks letters language (c :: xs) then none
      else (readText letters language false xs).map (c :: ·) := by
  rcases escapeChar_cases c with ⟨he, h⟩ | ⟨hb, hq, h⟩
  · simp [h, readText, readEscape_of_escaped he, not_breaks_of_escaped he]
  · simp [h, readText, hb, hq]

theorem readText_escaped_iff :
    readText letters language false (cs.flatMap escapeChar ++ ['"']) = some text ↔
      text = cs ∧ ∀ xs ∈ cs.tails, ¬breaks letters language xs := by
  induction cs generalizing text
  case nil => simp [readText, breaks]
  case cons c cs ih =>
    rw [List.flatMap_cons, List.append_assoc, readText_escapeChar_append, breaks_escaped,
      List.tails_cons, List.forall_mem_cons]
    split
    case isTrue hb  => simp [hb]
    case isFalse hb =>
      simp only [hb, Option.map_eq_some_iff, ih]
      grind

theorem ne_of_mem_lineEnds (h : c ∈ language.lineEnds) : c ≠ '\\' ∧ c ≠ '"' := by
  constructor <;> rintro rfl <;> cases language <;> revert h <;> decide

theorem hasLineEnd_stringLiteral :
    HasLineEnd language (lex.stringLiteral s) ↔ HasLineEnd language s := by
  refine exists_congr fun c => and_congr_left fun h => ?_
  obtain ⟨hb, hq⟩ := ne_of_mem_lineEnds h
  exact mem_stringLiteral_iff hb hq

theorem readLiteral_stringLiteral_iff :
    readLiteral letters language (lex.stringLiteral s) = some t ↔
      t = s ∧ IsPlain letters language s := by
  simp only [readLiteral, toList_stringLiteral, Option.map_eq_some_iff, readText_escaped_iff]
  constructor
  · rintro ⟨_, ⟨rfl, hp⟩, rfl⟩
    exact ⟨String.ofList_toList, hp⟩
  · rintro ⟨rfl, hp⟩
    exact ⟨_, ⟨rfl, hp⟩, String.ofList_toList⟩

theorem readLiteral_stringLiteral_eq_none_iff :
    readLiteral letters language (lex.stringLiteral s) = none ↔ ¬IsPlain letters language s := by
  rw [Option.eq_none_iff_forall_ne_some]
  simp [readLiteral_stringLiteral_iff]

variable (letters language)

theorem stringLiteral_reads_iff_isPlain (s : String) :
    isQuoted (language.lexicon.stringLiteral s) ∧
    (HasLineEnd language (language.lexicon.stringLiteral s) ↔ HasLineEnd language s) ∧
    ∀ t, readLiteral letters language (language.lexicon.stringLiteral s) = some t ↔
      t = s ∧ IsPlain letters language s :=
  ⟨isQuoted_stringLiteral, hasLineEnd_stringLiteral, fun _ => readLiteral_stringLiteral_iff⟩

def price : String := "the \"C:\\\\\" is $5 or $"

theorem stringLiteral_reads_price :
    readLiteral latin .kotlin (Language.kotlin.lexicon.stringLiteral price) = some price := by
  obtain ⟨-, -, h⟩ := stringLiteral_reads_iff_isPlain latin .kotlin price
  exact (h price).mpr ⟨rfl, by decide⟩

-- A line end breaks the literal in every language, a name behind a dollar sign in Kotlin.
theorem stringLiteral_reads_nothing :
    (∀ letters language, HasLineEnd language (language.lexicon.stringLiteral "a\nb") ∧
      readLiteral letters language (language.lexicon.stringLiteral "a\nb") = none) ∧
    ∀ letters, readLiteral letters .kotlin (Language.kotlin.lexicon.stringLiteral "$name") = none := by
  refine ⟨fun letters language => ⟨?_, ?_⟩, fun letters => ?_⟩
  · rw [hasLineEnd_stringLiteral]
    cases language <;> decide
  · rw [readLiteral_stringLiteral_eq_none_iff]
    intro h
    refine h ['\n', 'b'] (by decide) ?_
    cases language <;> rfl
  · have hn : letters.isLetter 'n' = true := letters.ascii 'n' (by decide)
    rw [readLiteral_stringLiteral_eq_none_iff]
    intro h
    refine h "$name".toList (by decide) ?_
    simp [breaks, beginsTemplate, hn]

end Language

end Classwright
