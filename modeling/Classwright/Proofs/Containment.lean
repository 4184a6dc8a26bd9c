import Classwright.Proofs.Paths

namespace Classwright

open Schema Settings Swagger

section

variable {mark : Char} {cs ds part : List Char}

theorem Text.splitOnChar_ne_nil : splitOnChar mark cs ≠ [] := by
  cases cs
  case nil => simp [splitOnChar]
  case cons c cs =>
    rw [splitOnChar]
    split
    case isTrue  => simp
    case isFalse => split <;> simp

theorem Text.splitOnChar_of_not_mem (h : mark ∉ cs) : splitOnChar mark cs = [cs] := by
  induction cs
  case nil => rfl
  case cons c cs ih =>
    have ⟨hc, hcs⟩ := not_or.mp <| mt List.mem_cons.mpr h
    rw [splitOnChar, if_neg <| by simpa using Ne.symm hc, ih hcs]

theorem Text.splitOnChar_append_mark :
    splitOnChar mark (cs ++ mark :: ds) = splitOnChar mark cs ++ splitOnChar mark ds := by
  induction cs
  case nil => simp [splitOnChar]
  case cons c cs ih =>
    obtain ⟨part, parts, hs⟩ := List.exists_cons_of_ne_nil <| @splitOnChar_ne_nil mark cs
    simp only [List.cons_append, splitOnChar, ih, hs]
    split <;> rfl

-- A text without a mark lengthens the last part.
theorem Text.splitOnChar_append (h : mark ∉ ds) : ∃ part,
    splitOnChar mark (cs ++ ds) = (splitOnChar mark cs).dropLast ++ [part ++ ds] := by
  induction cs
  case nil => exact ⟨[], by simpa [splitOnChar] using splitOnChar_of_not_mem h⟩
  case cons c cs ih =>
    obtain ⟨last, ih⟩ := ih
    obtain ⟨part, parts, hs⟩ := List.exists_cons_of_ne_nil <| @splitOnChar_ne_nil mark cs
    simp only [List.cons_append, splitOnChar, ih, hs]
    split
    case isTrue => exact ⟨last, by simp⟩
    case isFalse =>
      cases parts
      case nil       => exact ⟨c :: last, by simp⟩
      case cons p ps => exact ⟨last, by simp⟩

theorem Text.mem_of_mem_splitOnChar {c : Char} (hp : part ∈ splitOnChar mark cs) (hc : c ∈ part) :
    c ∈ cs := by
  induction cs generalizing part
  case nil => simp_all [splitOnChar]
  case cons x xs ih =>
    rw [splitOnChar] at hp
    split at hp
    case isTrue =>
      cases hp
      case head    => contradiction
      case tail hp => exact List.mem_cons_of_mem _ <| ih hp hc
    case isFalse =>
      obtain ⟨first, rest, hs⟩ := List.exists_cons_of_ne_nil <| @splitOnChar_ne_nil mark xs
      simp only [hs] at hp ih
      cases hp
      case tail hp => exact List.mem_cons_of_mem _ <| ih (List.mem_cons_of_mem _ hp) hc
      case head    =>
        exact (List.mem_cons.mp hc).elim (· ▸ List.mem_cons_self) fun hc =>
          List.mem_cons_of_mem _ <| ih List.mem_cons_self hc

end

namespace Path

variable {directory path stem ending : String}

-- A path that does not leave the directory that it starts from.
def IsBelow (path : String) : Prop :=
  ¬isAbsolute path ∧ ".." ∉ names path

-- What is written behind a stem is written behind its last name, which then leads nowhere up.
def StaysBelow (stem : String) : Prop :=
  ¬isAbsolute stem ∧ ".." ∉ (names stem).dropLast

instance (path : String) : Decidable (IsBelow path) :=
  decidable_of_iff (path.toList.head? ≠ some '/' ∧ ".." ∉ names path) <|
    and_congr_left fun _ => not_congr isAbsolute_iff.symm

theorem names_join : names (directory ++ "/" ++ path) = names directory ++ names path := by
  have hs : (directory ++ "/" ++ path).toList = directory.toList ++ '/' :: path.toList := by
    simp [String.toList_append]
  rw [names, Text.splitOn, hs, Text.splitOnChar_append_mark, List.map_append]
  rfl

theorem names_append (h : PlainName ending) :
    ∃ part, names (stem ++ ending) = (names stem).dropLast ++ [part ++ ending] := by
  obtain ⟨part, hs⟩ := @Text.splitOnChar_append '/' stem.toList _ h
  refine ⟨.ofList part, ?_⟩
  rw [names, Text.splitOn, String.toList_append, hs, List.map_append, List.map_dropLast]
  simp [names, Text.splitOn, String.ofList_append]

theorem staysBelow_of_plainName (hp : PlainName path) : StaysBelow path := by
  have hn : names path = [path] := by
    rw [names, Text.splitOn, Text.splitOnChar_of_not_mem hp, List.map_singleton,
      String.ofList_toList]
  exact ⟨not_isAbsolute_of_plainName hp, by simp [hn]⟩

-- An ending that is more than dots makes the last name lead nowhere up.
theorem isBelow_append (hp : PlainName ending) (he : ∃ c ∈ ending.toList, c ≠ '.') :
    IsBelow (stem ++ ending) ↔ StaysBelow stem := by
  obtain ⟨part, hn⟩ := @names_append stem ending hp
  have hl : ".." ≠ part ++ ending := by
    obtain ⟨c, hc, hd⟩ := he
    intro h
    have hm : c ∈ "..".toList := by simp [h, String.toList_append, hc]
    exact hd <| by simpa using hm
  rw [IsBelow, StaysBelow, isAbsolute_append hp, hn]
  simp [hl]

theorem isBelow_join (hd : IsBelow directory) (hn : directory ≠ "")
    (hs : ¬directory.endsWith "/") : IsBelow (join directory path) ↔ IsBelow path := by
  by_cases ha : isAbsolute path
  case pos => rw [join_of_isAbsolute ha]
  case neg =>
    have hj : ¬isAbsolute (directory ++ "/" ++ path) := by
      obtain ⟨c, cs, hc⟩ := List.exists_cons_of_ne_nil <| mt String.toList_eq_nil_iff.mp hn
      have hd := hd.left
      rw [isAbsolute_iff] at hd ⊢
      simpa [String.toList_append, hc] using hd
    rw [join_of_not_isAbsolute ha hn hs]
    simp [IsBelow, ha, hj, names_join, hd.right]

-- There is no dot in a word in snake case.
theorem staysBelow_snake_iff : StaysBelow (Naming.snake stem) ↔ ¬isAbsolute stem := by
  have hn : ".." ∉ (names (Naming.snake stem)).dropLast := by
    intro h
    obtain ⟨part, hp, he⟩ := List.mem_map.mp <| List.mem_of_mem_dropLast h
    have he : part = ['.', '.'] := by simpa using congrArg String.toList he
    rw [Naming.snake, String.toList_ofList] at hp
    exact Naming.dot_not_mem_snakeChars <|
      Text.mem_of_mem_splitOnChar hp <| he ▸ List.mem_cons_self
  rw [StaysBelow, isAbsolute_iff, isAbsolute_iff, Naming.snake, String.toList_ofList,
    Naming.head?_snakeChars_eq_slash_iff]
  exact and_iff_left hn

end Path

namespace GeneratedFile

variable {language : Language} {n : String}

theorem isBelow_filePath_iff {p : ClassPlace} :
    Path.IsBelow (filePath language p) ↔ Path.StaysBelow p.snd := by
  have hd : Path.IsBelow (language.name ++ "/" ++ p.fst.name) := by
    cases language <;> cases p.fst <;> decide
  have he : ∃ c ∈ ("." ++ language.lexicon.fileExtension).toList, c ≠ '.' := by
    cases language
    case java       => exact ⟨'j', by decide, by decide⟩
    case kotlin     => exact ⟨'k', by decide, by decide⟩
    case typescript => exact ⟨'t', by decide, by decide⟩
    case python     => exact ⟨'p', by decide, by decide⟩
  rw [filePath, Path.isBelow_join hd (kindDirectory_ne_empty language p.fst)
    (kindDirectory_not_endsWith language p.fst), String.append_assoc,
    Path.isBelow_append (plainName_extension language) he]

theorem staysBelow_stem_iff : Path.StaysBelow (stem language n) ↔
    ¬Path.isAbsolute n ∧ (language ≠ .python → ".." ∉ (Path.names n).dropLast) := by
  rw [stem_eq]
  split
  case isTrue hl  => simp [hl, Path.staysBelow_snake_iff]
  case isFalse hl => simp [hl, Path.StaysBelow]

theorem staysBelow_stem_tableClassName_iff :
    Path.StaysBelow (stem language <| Classes.tableClassName n) ↔
      Path.StaysBelow (stem language n) := by
  have ht : PlainName "TableSchema" := by decide
  obtain ⟨part, hn⟩ := @Path.names_append n "TableSchema" ht
  rw [staysBelow_stem_iff, staysBelow_stem_iff, Classes.tableClassName, Path.isAbsolute_append ht,
    hn, List.dropLast_concat]

end GeneratedFile

namespace Blueprint

open GeneratedFile

variable {passes : Nat} {d : Document} {b : Blueprint} {language : Language}
  {files : List GeneratedFile}

theorem staysBelow_of_mem_places_iff (he : ∀ e ∈ b.endpoints, PlainName e.name) :
    (∀ p ∈ places language b, Path.StaysBelow p.snd) ↔
      ∀ n ∈ b.graph.names, Path.StaysBelow (stem language n) := by
  constructor
  · intro h n hn
    obtain ⟨d, hd, rfl⟩ := List.mem_map.mp hn
    refine h (.model, stem language d.name) ?_
    exact List.mem_append_left _ <| List.mem_append_left _ <| List.mem_flatMap.mpr
      ⟨d, hd, List.mem_cons_self⟩
  · intro h
    have hn : ∀ n, PlainName n → Path.StaysBelow (stem language n) :=
      fun _ hn => Path.staysBelow_of_plainName <| plainName_stem hn
    refine forall_mem_places he hn fun d hd => ?_
    have hs := h _ <| List.mem_map_of_mem hd
    exact ⟨hs, staysBelow_stem_tableClassName_iff.mpr hs⟩

-- All files lie below the output directory exactly if no name of a definition is absolute and none,
-- unless files are named in snake case, leads up before its last slash.
theorem isBelow_paths_iff (h : ofDocument passes d = .ok b)
    (hf : (b.filesOf (.standard language)).result = .ok files) :
    (∀ f ∈ files, Path.IsBelow f.path) ↔
      ∀ n ∈ b.graph.names, ¬Path.isAbsolute n ∧
        (language ≠ .python → ".." ∉ (Path.names n).dropLast) := by
  have hp := map_path_filesOf (isBuilt_of_ofDocument_eq_ok h).linked hf
  have hm : (∀ f ∈ files, Path.IsBelow f.path) ↔
      ∀ path ∈ files.map (·.path), Path.IsBelow path := by simp
  rw [hm, hp, List.forall_mem_map]
  simp only [isBelow_filePath_iff]
  rw [staysBelow_of_mem_places_iff (plainName_of_mem_endpoints h)]
  simp only [staysBelow_stem_iff]

theorem isBelow_paths_orderDocument :
    (∃ files, ((⟨orderGraph, []⟩ : Blueprint).filesOf <| .standard .python).result = .ok files ∧
        ∀ f ∈ files, Path.IsBelow f.path) ∧
      ∃ files, ((⟨orderGraph, []⟩ : Blueprint).filesOf <| .standard .java).result = .ok files ∧
        ∀ f ∈ files, Path.IsBelow f.path := by
  have ho : orderGraph.definitions.flatMap (errorsOf orderGraph) = [] := by decide +kernel
  obtain ⟨files, hf⟩ := exists_filesOf (s := .standard .python) ofDocument_orderDocument ho
  obtain ⟨files', hf'⟩ := exists_filesOf (s := .standard .java) ofDocument_orderDocument ho
  have hn : ∀ n ∈ orderGraph.names, ¬Path.isAbsolute n ∧ ".." ∉ (Path.names n).dropLast := by
    simp only [Path.isAbsolute_iff]
    decide
  refine ⟨⟨files, hf, ?_⟩, files', hf', ?_⟩
  · exact (isBelow_paths_iff ofDocument_orderDocument hf).mpr fun n hm =>
      ⟨(hn n hm).left, fun _ => (hn n hm).right⟩
  · exact (isBelow_paths_iff ofDocument_orderDocument hf').mpr fun n hm =>
      ⟨(hn n hm).left, fun _ => (hn n hm).right⟩

-- One name is absolute, and the other one leads up beyond the output directory.
def strayingDocument : Document :=
  let pet := objectOf [("name", entryOf "type" "string")]
  { documentOf [("/tmp/Pet", pet), ("../../../Pet", pet)] with paths := [(.str "/pets", .map [])] }

theorem schemas_strayingDocument : strayingDocument.schemas =
    [⟨"/tmp/Pet", [.ofType "name" (.named "string" false) false]⟩,
      ⟨"../../../Pet", [.ofType "name" (.named "string" false) false]⟩] := by
  with_unfolding_all rfl

def strayingGraph : DefinitionGraph where
  definitions := [
    .make "/tmp/Pet" [.ofType "name" (.named "string" false) false],
    .make "../../../Pet" [.ofType "name" (.named "string" false) false]]
  nodup := by decide

theorem ofDocument_strayingDocument : ofDocument 3 strayingDocument = .ok ⟨strayingGraph, []⟩ := by
  rw [ofDocument, initialGraph, schemas_strayingDocument]
  rfl

theorem not_isBelow_paths_strayingDocument : ∃ b files, ofDocument 3 strayingDocument = .ok b ∧
    (b.filesOf <| .standard .java).result = .ok files ∧
    files.map (·.path) = ["/tmp/Pet.java", "java/model/../../../Pet.java"] ∧
    (∀ f ∈ files, ¬Path.IsBelow f.path) := by
  have hr : strayingGraph.definitions.flatMap (errorsOf strayingGraph) = [] := by decide +kernel
  obtain ⟨files, hf⟩ := exists_filesOf (s := .standard .java) ofDocument_strayingDocument hr
  have hp := map_path_filesOf (isBuilt_of_ofDocument_eq_ok ofDocument_strayingDocument).linked hf
  have ha : Path.isAbsolute "/tmp/Pet" := Path.isAbsolute_iff.mpr rfl
  have hd : ¬Path.isAbsolute "../../../Pet" := mt Path.isAbsolute_iff.mp (by decide)
  have he : files.map (·.path) = ["/tmp/Pet.java", "java/model/../../../Pet.java"] :=
    hp.trans <| congrArg₂ (fun p q => [p, q])
      (filePath_of_isAbsolute (p := (.model, "/tmp/Pet")) ha)
      (filePath_of_not_isAbsolute (p := (.model, "../../../Pet")) hd)
  refine ⟨_, files, ofDocument_strayingDocument, hf, he, ?_⟩
  have hn : ∀ path ∈ files.map (·.path), ¬Path.IsBelow path := he ▸ by decide
  simpa using hn

end Blueprint

end Classwright
