import Classwright.Proofs.Generation
import Classwright.Proofs.Stages
import Classwright.Proofs.Table.Calls
import Classwright.Proofs.Text.Snake
import Classwright.Proofs.Text.Template

namespace Classwright

open Schema Settings Swagger DefinitionGraph Classes

theorem Schema.PlainName.snake {n : String} (h : PlainName n) : PlainName (Naming.snake n) := by
  simpa [PlainName, Naming.snake] using Naming.not_mem_snakeChars h

namespace Path

variable {directory path stem ending : String}

theorem isAbsolute_iff : isAbsolute path ↔ path.toList.head? = some '/' := by
  rw [isAbsolute, String.startsWith_string_iff]
  cases path.toList <;> simp [List.prefix_cons_iff, eq_comm]

theorem not_isAbsolute_of_plainName (hp : PlainName path) : ¬isAbsolute path :=
  fun h => hp <| List.mem_of_head? <| isAbsolute_iff.mp h

theorem isAbsolute_append (hp : PlainName ending) :
    isAbsolute (stem ++ ending) ↔ isAbsolute stem := by
  rw [isAbsolute_iff, isAbsolute_iff, String.toList_append]
  cases stem.toList
  case cons c cs => rfl
  case nil       => exact ⟨fun h => absurd (List.mem_of_head? h) hp, nofun⟩

theorem join_of_isAbsolute (ha : isAbsolute path) : join directory path = path := by
  simp [join, ha]

theorem join_of_not_isAbsolute (ha : ¬isAbsolute path) (hd : directory ≠ "")
    (hs : ¬directory.endsWith "/") : join directory path = directory ++ "/" ++ path := by
  simp [join, ha, hd, hs]

end Path

namespace GeneratedFile

-- Where a class is placed: its kind, and the name of its file without the extension.
abbrev ClassPlace := ClassKind × String

-- The path of the file of a class. An absolute name stays as it is, so the directory gets lost.
def filePath (language : Language) (p : ClassPlace) : String :=
  Path.join (language.name ++ "/" ++ p.fst.name) (p.snd ++ "." ++ language.lexicon.fileExtension)

def pathTo (language : Language) (p : ClassPlace) : String :=
  language.name ++ "/" ++ p.fst.name ++ "/" ++ p.snd ++ "." ++ language.lexicon.fileExtension

theorem plainName_extension (language : Language) :
    PlainName ("." ++ language.lexicon.fileExtension) := by
  cases language <;> decide

theorem kindDirectory_ne_empty (language : Language) (kind : ClassKind) :
    language.name ++ "/" ++ kind.name ≠ "" := by
  cases language <;> cases kind <;> decide

theorem kindDirectory_not_endsWith (language : Language) (kind : ClassKind) :
    ¬(language.name ++ "/" ++ kind.name).endsWith "/" := by
  rw [String.endsWith_eq_endsWith_toSlice, String.Slice.endsWith_string_iff]
  cases language <;> cases kind <;> decide

section

variable {language : Language} {p : ClassPlace}

theorem filePath_of_isAbsolute (ha : Path.isAbsolute p.snd) :
    filePath language p = p.snd ++ "." ++ language.lexicon.fileExtension := by
  refine Path.join_of_isAbsolute ?_
  rwa [String.append_assoc, Path.isAbsolute_append <| plainName_extension language]

theorem filePath_of_not_isAbsolute (ha : ¬Path.isAbsolute p.snd) :
    filePath language p = pathTo language p := by
  have hf : ¬Path.isAbsolute (p.snd ++ "." ++ language.lexicon.fileExtension) := by
    rwa [String.append_assoc, Path.isAbsolute_append <| plainName_extension language]
  rw [filePath, Path.join_of_not_isAbsolute hf (kindDirectory_ne_empty language p.fst)
    (kindDirectory_not_endsWith language p.fst), pathTo]
  simp only [String.append_assoc]

theorem filePath_of_plainName (hp : PlainName p.snd) : filePath language p = pathTo language p :=
  filePath_of_not_isAbsolute <| Path.not_isAbsolute_of_plainName hp

end

theorem pathTo_injective (language : Language) : (pathTo language).Injective := by
  rintro ⟨kind, stem⟩ ⟨kind', stem'⟩ h
  have h := congrArg String.toList h
  simp only [pathTo, String.toList_append, List.append_assoc, List.append_cancel_left_eq] at h
  cases kind <;> cases kind' <;> simp_all [ClassKind.name, String.toList_inj]

-- The stems of the files of one kind.
def stemsOf (kind : ClassKind) (ps : List ClassPlace) : List String :=
  (ps.filter (·.fst = kind)).map (·.snd)

theorem stemsOf_append (kind : ClassKind) (ps qs : List ClassPlace) :
    stemsOf kind (ps ++ qs) = stemsOf kind ps ++ stemsOf kind qs := by
  simp [stemsOf]

theorem nodup_iff_stemsOf {ps : List ClassPlace} : ps.Nodup ↔ ∀ kind, (stemsOf kind ps).Nodup := by
  constructor
  · intro h kind
    refine (h.filter _).map_on fun p hp q hq he => Prod.ext ?_ he
    simp only [List.mem_filter, decide_eq_true_eq] at hp hq
    exact hp.right.trans hq.right.symm
  · intro h
    induction ps
    case nil => exact List.nodup_nil
    case cons p ps ih =>
      refine List.nodup_cons.mpr ⟨fun hm => ?_, ih fun kind => ?_⟩
      · have hn := h p.fst
        simp only [stemsOf, List.filter_cons, decide_true, if_true, List.map_cons] at hn
        exact (List.nodup_cons.mp hn).left <| List.mem_map_of_mem <| List.mem_filter.mpr ⟨hm, by simp⟩
      · exact (h kind).sublist <| ((List.sublist_cons_self p ps).filter _).map _

section

variable {language : Language} {d : Definition} {ds : List Definition}

def stem (language : Language) (name : String) : String :=
  language.lexicon.fileStem name

-- The places of the classes of a definition.
def placesOf (language : Language) (d : Definition) : List ClassPlace :=
  (.model, stem language d.name) ::
    if d.needsTable then [(.database, stem language <| tableClassName d.name)] else []

theorem stemsOf_model : stemsOf .model (ds.flatMap (placesOf language)) =
    ds.map fun d => stem language d.name := by
  induction ds
  case nil => rfl
  case cons d ds ih =>
    rw [List.flatMap_cons, stemsOf_append, ih, placesOf]
    split <;> rfl

theorem stemsOf_database : stemsOf .database (ds.flatMap (placesOf language)) =
    (ds.filter (·.needsTable)).map fun d => stem language <| tableClassName d.name := by
  induction ds
  case nil => rfl
  case cons d ds ih =>
    rw [List.flatMap_cons, stemsOf_append, ih, placesOf, List.filter_cons]
    split <;> rfl

theorem stemsOf_api : stemsOf .api (ds.flatMap (placesOf language)) = [] := by
  induction ds
  case nil => rfl
  case cons d ds ih =>
    rw [List.flatMap_cons, stemsOf_append, ih, placesOf]
    split <;> rfl

theorem stem_eq (language : Language) (name : String) :
    stem language name = if language = .python then Naming.snake name else name := by
  cases language <;> rfl

theorem plainName_stem {name : String} (h : PlainName name) : PlainName (stem language name) := by
  rw [stem_eq]
  split
  case isTrue  => exact h.snake
  case isFalse => exact h

-- The file of a table class ends like no file of a storage interface.
theorem getLast?_stem_tableClassName (language : Language) (name : String) :
    (stem language <| tableClassName name).toList.getLast? = some 'a' := by
  rw [stem_eq, tableClassName]
  split
  case isFalse => simp [String.toList_append]
  case isTrue =>
    obtain ⟨b, h⟩ := Naming.snakeChars_append false name.toList "TableSchema".toList
    rw [Naming.snake, String.toList_ofList, String.toList_append, h, List.getLast?_append]
    cases b <;> rfl

@[simp] theorem language_standard : (LanguageSettings.standard language).language = language :=
  rfl

@[simp] theorem kind_standard (kind : ClassKind) :
    (LanguageSettings.standard language).kind kind = .standard language kind := by
  cases kind <;> rfl

theorem directory_standard (kind : ClassKind) (tag : Option String) :
    (ClassSettings.standard language kind).directory tag = language.name ++ "/" ++ kind.name := by
  refine Template.fill_of_not_mem ?_
  cases language <;> cases kind <;> decide

theorem path_ofClass {kind : ClassKind} {tag : Option String} {c : Code.ClassDecl} :
    (ofClass language.lexicon (.standard language kind) tag c).path =
      filePath language (kind, stem language c.name) := by
  rw [path, ofClass, directory_standard]
  rfl

theorem path_ofInterface {name declaration : String} {imports : List Code.Import} :
    (ofInterface language.lexicon (.standard language .database) name declaration imports).path =
      filePath language (.database, stem language name) := by
  rw [path, ofInterface, directory_standard]
  rfl

variable {g : DefinitionGraph} {files : List GeneratedFile} {lex : Lexicon}
  {s model : ClassSettings} {e : Endpoint}

@[simp] theorem name_modelClass : (Model.classOf lex s d).name = d.name := by
  simp [Model.classOf, Code.ClassDecl.make]

@[simp] theorem name_requestClass :
    (Request.classOf lex s model e).name = requestClassName e.name := by
  simp [Request.classOf, Code.ClassDecl.make]

theorem paths_ofDefinition (hg : g.IsLinked) (hd : d ∈ g.definitions)
    (h : (ofDefinition (.standard language) g d).result = .ok files) :
    files.map (·.path) = (placesOf language d).map (filePath language) := by
  rw [ofDefinition_eq_ok hg hd h, placesOf]
  split <;> simp only [kind_standard, language_standard, List.map_cons, List.map_nil, path_ofClass,
    name_modelClass, Table.name_linkedClass]

theorem paths_ofDefinitions (hg : g.IsLinked) (hds : ∀ d ∈ ds, d ∈ g.definitions)
    (h : (ofDefinitions (.standard language) g ds).result = .ok files) :
    files.map (·.path) = (ds.flatMap (placesOf language)).map (filePath language) := by
  induction ds generalizing files
  case nil =>
    cases h
    rfl
  case cons d ds ih =>
    have ⟨hd, hds⟩ := List.forall_mem_cons.mp hds
    obtain ⟨own, more, h₁, h₂, rfl⟩ := ofDefinitions_cons_eq_ok h
    rw [List.map_append, List.flatMap_cons, List.map_append, ih hds h₂, paths_ofDefinition hg hd h₁]

end

end GeneratedFile

namespace Blueprint

open GeneratedFile

variable {passes : Nat} {d : Document} {b : Blueprint} {language : Language}
  {files : List GeneratedFile}

-- The places of all files, in the order in which they are generated.
def places (language : Language) (b : Blueprint) : List ClassPlace :=
  b.graph.definitions.flatMap (placesOf language) ++
    (if b.graph.definitions.any (·.needsTable) then
      [(.database, stem language databaseType), (.database, stem language rowType)] else []) ++
    b.endpoints.map fun e => (.api, stem language <| requestClassName e.name)

-- Except for the classes of definitions, all files are named by plain names.
theorem forall_mem_places {P : String → Prop} (he : ∀ e ∈ b.endpoints, PlainName e.name)
    (hn : ∀ n, PlainName n → P (stem language n))
    (hd : ∀ d ∈ b.graph.definitions,
      P (stem language d.name) ∧ P (stem language <| tableClassName d.name)) :
    ∀ p ∈ places language b, P p.snd := by
  intro p hp
  rcases List.mem_append.mp hp with hp | hp
  · rcases List.mem_append.mp hp with hp | hp
    · obtain ⟨d, hm, hp⟩ := List.mem_flatMap.mp hp
      rw [GeneratedFile.placesOf] at hp
      cases hp
      case head => exact (hd d hm).left
      case tail hp =>
        split at hp
        case isTrue  => exact List.mem_singleton.mp hp ▸ (hd d hm).right
        case isFalse => contradiction
    · have hi : ∀ n ∈ [databaseType, rowType], PlainName n := by decide
      split at hp <;> simp only [List.mem_cons, List.not_mem_nil, or_false] at hp
      rcases hp with rfl | rfl <;> exact hn _ <| hi _ <| by simp
  · obtain ⟨e, hm, rfl⟩ := List.mem_map.mp hp
    exact hn _ <| (he e hm).append <| by decide

theorem map_path_filesOf (hg : b.graph.IsLinked)
    (h : (b.filesOf (.standard language)).result = .ok files) :
    files.map (·.path) = (places language b).map (filePath language) := by
  obtain ⟨classes, h₁, rfl⟩ := filesOf_eq_ok h
  rw [places, List.map_append, List.map_append, List.map_append, List.map_append,
    paths_ofDefinitions hg (fun _ => id) h₁]
  congr 1
  · congr 1
    split
    case isFalse => rfl
    case isTrue =>
      simp only [ofInterfaces, kind_standard, List.map_cons, List.map_nil]
      exact congrArg₂ (fun p q => [p, q]) path_ofInterface path_ofInterface
  · rw [List.map_map, List.map_map]
    refine List.map_congr_left fun e _ => ?_
    simp only [Function.comp_apply, ofEndpoint, kind_standard, language_standard, path_ofClass,
      name_requestClass]

theorem paths_filesOf (hg : b.graph.IsLinked) (hn : ∀ n ∈ b.graph.names, PlainName n)
    (he : ∀ e ∈ b.endpoints, PlainName e.name)
    (h : (b.filesOf (.standard language)).result = .ok files) :
    files.map (·.path) = (places language b).map (pathTo language) := by
  rw [map_path_filesOf hg h]
  refine List.map_congr_left fun p hp => filePath_of_plainName ?_
  refine forall_mem_places he (fun _ => plainName_stem) (fun d hd => ?_) p hp
  have hp := hn _ <| List.mem_map_of_mem hd
  exact ⟨plainName_stem hp, plainName_stem <| hp.append <| by decide⟩

theorem stemsOf_places (kind : ClassKind) : stemsOf kind (places language b) = match kind with
    | .model => b.graph.definitions.map fun d => stem language d.name
    | .database =>
      ((b.graph.definitions.filter (·.needsTable)).map fun d =>
          stem language <| tableClassName d.name) ++
        if b.graph.definitions.any (·.needsTable) then
          [stem language databaseType, stem language rowType] else []
    | .api => b.endpoints.map fun e => stem language <| requestClassName e.name := by
  rw [places, stemsOf_append, stemsOf_append]
  cases kind
  case model    => rw [stemsOf_model]; split <;> simp [stemsOf, List.filter_map, Function.comp_def]
  case database => rw [stemsOf_database]; split <;> simp [stemsOf, List.filter_map, Function.comp_def]
  case api      => rw [stemsOf_api]; split <;> simp [stemsOf, List.filter_map, Function.comp_def]

-- Neither of the storage interfaces meets the other one, or a table class.
theorem nodup_places_iff : (places language b).Nodup ↔
    (b.graph.definitions.map fun d => stem language d.name).Nodup ∧
      ((b.graph.definitions.filter (·.needsTable)).map fun d =>
        stem language <| tableClassName d.name).Nodup ∧
      (b.endpoints.map fun e => stem language <| requestClassName e.name).Nodup := by
  have hi : [stem language databaseType, stem language rowType].Nodup := by
    cases language <;> decide
  have ha : ∀ n ∈ [stem language databaseType, stem language rowType],
      n.toList.getLast? ≠ some 'a' := by
    cases language <;> decide
  have hall : (places language b).Nodup ↔ (stemsOf .model (places language b)).Nodup ∧
      (stemsOf .database (places language b)).Nodup ∧ (stemsOf .api (places language b)).Nodup :=
    nodup_iff_stemsOf.trans
      ⟨fun h => ⟨h _, h _, h _⟩, fun ⟨hm, hd, ha⟩ kind => by cases kind <;> assumption⟩
  rw [hall]
  simp only [stemsOf_places]
  refine and_congr_right fun _ => and_congr_left fun _ => ?_
  split
  case isFalse => rw [List.append_nil]
  case isTrue =>
    refine ⟨fun h => (List.nodup_append.mp h).left, fun h => ?_⟩
    refine List.nodup_append.mpr ⟨h, hi, fun n hn m hm he => ?_⟩
    obtain ⟨d, _, rfl⟩ := List.mem_map.mp hn
    exact ha m hm <| he ▸ getLast?_stem_tableClassName language d.name

theorem map_name_endpoints (h : ofDocument passes d = .ok b) :
    b.endpoints.map (·.name) = (Endpoint.nameAll [] d.operations).map (·.name) := by
  rw [endpoints_eq h, List.map_map]
  rfl

theorem plainName_of_mem_endpoints (h : ofDocument passes d = .ok b) :
    ∀ e ∈ b.endpoints, PlainName e.name := by
  intro e he
  have hm : e.name ∈ (Endpoint.nameAll [] d.operations).map (·.name) :=
    map_name_endpoints h ▸ List.mem_map_of_mem he
  obtain ⟨o, ho, hn⟩ := List.mem_map.mp hm
  exact hn ▸ Endpoint.plainName_of_mem_nameAll o ho

-- Two files have the same path exactly if two classes of one kind have the same stem, which takes
-- file names in snake case.
theorem nodup_paths_iff (h : ofDocument passes d = .ok b)
    (hn : ∀ n ∈ b.graph.names, PlainName n)
    (hf : (b.filesOf (.standard language)).result = .ok files) :
    ((files.map (·.path)).Nodup ↔
        (b.graph.definitions.map fun e => language.lexicon.fileStem e.name).Nodup ∧
          ((b.graph.definitions.filter (·.needsTable)).map fun e =>
            language.lexicon.fileStem (tableClassName e.name)).Nodup ∧
          (b.endpoints.map fun e => language.lexicon.fileStem (requestClassName e.name)).Nodup) ∧
      (language ≠ .python → (files.map (·.path)).Nodup) := by
  have hg := (isBuilt_of_ofDocument_eq_ok h).linked
  rw [paths_filesOf hg hn (plainName_of_mem_endpoints h) hf,
    List.nodup_map_iff (pathTo_injective language), nodup_places_iff]
  refine ⟨.rfl, fun hl => ?_⟩
  have happend : ∀ ending : String, (fun n : String => n ++ ending).Injective :=
    fun _ _ _ => String.append_left_inj _ |>.mp
  simp only [stem_eq, if_neg hl]
  refine ⟨b.graph.nodup, ?_, ?_⟩
  · have hs : ((b.graph.definitions.filter (·.needsTable)).map (·.name)).Nodup :=
      b.graph.nodup.sublist <| List.filter_sublist.map _
    simpa [Function.comp_def, tableClassName] using hs.map <| happend "TableSchema"
  · have he : (b.endpoints.map (·.name)).Nodup :=
      map_name_endpoints h ▸ (@Endpoint.nodup_nameAll [] d.operations).left
    simpa [Function.comp_def, requestClassName] using he.map <| happend "Api"

theorem exists_filesOf {s : LanguageSettings} (h : ofDocument passes d = .ok b)
    (hr : b.graph.definitions.flatMap (errorsOf b.graph) = []) :
    ∃ files, (b.filesOf s).result = .ok files := by
  rw [Reported.exists_eq_ok_iff, outcome_filesOf (isBuilt_of_ofDocument_eq_ok h).linked, hr]
  rfl

-- Two names that only differ in the case of a letter.
def tagDocument : Document :=
  let tag := objectOf [("id", entryOf "type" "integer")]
  { documentOf [("PetTag", tag), ("petTag", tag)] with paths := [(.str "/pets", .map [])] }

theorem schemas_tagDocument : tagDocument.schemas =
    [⟨"PetTag", [.ofType "id" (.named "integer" false) false]⟩,
      ⟨"petTag", [.ofType "id" (.named "integer" false) false]⟩] := by
  with_unfolding_all rfl

def tagGraph : DefinitionGraph where
  definitions := [
    .make "PetTag" [.ofType "id" (.named "integer" false) false],
    .make "petTag" [.ofType "id" (.named "integer" false) false]]
  nodup := by decide

theorem ofDocument_tagDocument : ofDocument 3 tagDocument = .ok ⟨tagGraph, []⟩ := by
  rw [ofDocument, initialGraph, schemas_tagDocument]
  rfl

theorem errorsOf_tagGraph : tagGraph.definitions.flatMap (errorsOf tagGraph) = [] := by
  decide +kernel

-- The files of an order are told apart in snake case, and those of the tags as they are.
theorem nodup_paths_orderDocument :
    (∃ files, ((⟨orderGraph, []⟩ : Blueprint).filesOf <| .standard .python).result = .ok files ∧
        (files.map (·.path)).Nodup) ∧
      ∃ files, ((⟨tagGraph, []⟩ : Blueprint).filesOf <| .standard .kotlin).result = .ok files ∧
        (files.map (·.path)).Nodup := by
  have ho : orderGraph.definitions.flatMap (errorsOf orderGraph) = [] := by decide +kernel
  obtain ⟨files, hf⟩ := exists_filesOf (s := .standard .python) ofDocument_orderDocument ho
  obtain ⟨files', hf'⟩ := exists_filesOf (s := .standard .kotlin) ofDocument_tagDocument
    errorsOf_tagGraph
  refine ⟨⟨files, hf, ?_⟩, files', hf', ?_⟩
  · exact (nodup_paths_iff ofDocument_orderDocument (by decide) hf).left.mpr (by decide)
  · exact (nodup_paths_iff ofDocument_tagDocument (by decide) hf').right (by decide)

theorem not_nodup_paths_tagDocument : ∃ b files, ofDocument 3 tagDocument = .ok b ∧
    (b.filesOf <| .standard .python).result = .ok files ∧ ¬(files.map (·.path)).Nodup := by
  have hg := (isBuilt_of_ofDocument_eq_ok ofDocument_tagDocument).linked
  have hn : ∀ n ∈ tagGraph.names, PlainName n := by decide
  obtain ⟨files, hf⟩ := exists_filesOf (s := .standard .python) ofDocument_tagDocument
    errorsOf_tagGraph
  refine ⟨_, files, ofDocument_tagDocument, hf, ?_⟩
  rw [paths_filesOf hg hn nofun hf, List.nodup_map_iff (pathTo_injective _), nodup_places_iff]
  decide

end Blueprint

end Classwright
