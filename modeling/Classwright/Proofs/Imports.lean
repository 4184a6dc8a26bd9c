import Classwright.Proofs.Paths
import Classwright.Proofs.Requests
import Classwright.Proofs.TypeNames

namespace Classwright

open Schema Code Settings Swagger DefinitionGraph Classes Classes.Table Endpoint

-- What other files can import from the file of a class: the class, and the enumerations that do not
-- stand inside it.
def Code.ClassDecl.Exports (lex : Lexicon) (c : ClassDecl) (i : Import) : Prop :=
  i.package = c.package ∧ i.owner = c.name ∧
    (i.name = c.name ∨ ¬lex.nestsEnums ∧ i.name ∈ c.enums.map (·.name))

namespace Settings.LanguageSettings

variable (s : LanguageSettings)

def modelClass (d : Definition) : ClassDecl :=
  Model.classOf s.language.lexicon (s.kind .model) d

def tableClass (g : DefinitionGraph) (d : Definition) : ClassDecl :=
  linkedClass s.language.lexicon (s.kind .model) (s.kind .database) g d

def requestClass (e : Endpoint) : ClassDecl :=
  Request.classOf s.language.lexicon (s.kind .api) (s.kind .model) e

-- A class in the file of its own, by its kind.
def modelImport (name : String) : Import :=
  .ofClass (s.kind .model).package name

def databaseImport (name : String) : Import :=
  .ofClass (s.kind .database).package name

@[simp] theorem name_modelClass {d : Definition} : (s.modelClass d).name = d.name :=
  GeneratedFile.name_modelClass

@[simp] theorem package_modelClass {d : Definition} :
    (s.modelClass d).package = (s.kind .model).package := by
  simp [modelClass, Model.classOf, ClassDecl.make]

@[simp] theorem name_tableClass {g : DefinitionGraph} {d : Definition} :
    (s.tableClass g d).name = tableClassName d.name :=
  name_linkedClass

@[simp] theorem package_tableClass {g : DefinitionGraph} {d : Definition} :
    (s.tableClass g d).package = (s.kind .database).package := by
  simp [tableClass, linkedClass, classWith, ClassDecl.make]

-- The types that the methods of a table class mention.
def tableTypes (d : Definition) : List Import :=
  [s.modelImport d.name, s.databaseImport databaseType, s.databaseImport rowType]

end Settings.LanguageSettings

namespace Classes.Table

variable {s : LanguageSettings} {g : DefinitionGraph} {owner path : String} {p : Property}
  {storage : Storage} {id : Primitive} {r : Reading} {t : Definition} {n : String}

-- What the text of a reading mentions, apart from the readings inside it. An enumeration that stands
-- inside its class is mentioned by way of that class.
def Reading.mentions (s : LanguageSettings) : Reading → List Import
  | .choice owner property _ =>
    if s.language.lexicon.nestsEnums then [s.modelImport owner]
    else [⟨(s.kind .model).package, enumName owner property, owner⟩]
  | .object definition _ _ => [s.modelImport definition]
  | .found target _ _ => [s.databaseImport (tableClassName target)]
  | _ => []

-- The enumeration that a reading takes a constant from is one of the class that it belongs to.
def Reading.HasEnumeration (s : LanguageSettings) (g : DefinitionGraph) : Reading → Prop
  | .choice owner property _ => ∃ d, g.get? owner = some d ∧
    enumName owner property ∈ (s.modelClass d).enums.map (·.name)
  | _ => True

mutual

theorem mentions_subset_imports (s : LanguageSettings) : ∀ reading : Reading, ∀ r ∈ reading.parts,
    r.mentions s ⊆ reading.imports s.language.lexicon (s.kind .model) (s.kind .database)
  | .object definition fields guard, r, h => by
    rcases List.mem_cons.mp h with rfl | h
    · exact List.cons_subset_cons _ <| List.nil_subset _
    · exact List.subset_cons_of_subset _ <| mentions_subset_fieldImports s fields r h
  | .present reading, r, h => by
    rcases List.mem_cons.mp h with rfl | h
    · exact List.nil_subset _
    · exact mentions_subset_imports s reading r h
  | .choice .., r, h | .found .., r, h | .value _, r, h | .strings _, r, h | .null, r, h => by
    cases List.mem_singleton.mp h
    exact List.Subset.refl _

theorem mentions_subset_fieldImports (s : LanguageSettings) :
    ∀ fields : List (String × Reading), ∀ r ∈ partsOfFields fields, r.mentions s ⊆
      Reading.fieldImports s.language.lexicon (s.kind .model) (s.kind .database) fields
  | [], _, h => nomatch h
  | (_, reading) :: rest, r, h => by
    rcases List.mem_append.mp h with h | h
    · exact List.subset_append_of_subset_left _ <| mentions_subset_imports s reading r h
    · exact List.subset_append_of_subset_right _ <| mentions_subset_fieldImports s rest r h

end

theorem mem_enums_modelClass (hp : p ∈ t.properties) (hc : p.choices.isSome) :
    enumName t.name p.name ∈ (s.modelClass t).enums.map (·.name) := by
  obtain ⟨values, hv⟩ := Option.isSome_iff_exists.mp hc
  rw [LanguageSettings.modelClass, Model.classOf, ClassDecl.enums_addImports]
  refine List.mem_map.mpr ⟨⟨_, values⟩, List.mem_filterMap.mpr ⟨p, hp, ?_⟩, rfl⟩
  rw [Model.enumOf?, hv]
  rfl

theorem hasEnumeration_of_storedAs (h : StoredAs g owner p storage) (hp : p ∈ g.propertiesOf owner)
    (hr : r ∈ (readingOf id path owner p storage).tops) : r.HasEnumeration s g := by
  cases h
  case choice =>
    rcases mem_tops_presentIf hr with rfl | hr
    case inl => trivial
    case inr =>
      split at hr
      case isFalse => cases List.mem_singleton.mp hr; trivial
      case isTrue hc =>
        cases List.mem_singleton.mp hr
        obtain ⟨d, hd, hm⟩ := exists_of_mem_propertiesOf hp
        exact ⟨d, hd, name_of_get? hd ▸ mem_enums_modelClass hm hc⟩
  case native | stringList | foreignKey =>
    rcases mem_tops_presentIf hr with rfl | hr
    case inl => trivial
    case inr => cases List.mem_singleton.mp hr; trivial
  all_goals
    cases List.mem_singleton.mp hr
    trivial

theorem hasEnumeration_rowReading (ht : g.get? n = some t) (hr : r ∈ (rowReading g t).parts) :
    r.HasEnumeration s g :=
  forall_mem_rowReading ht trivial (fun _ _ _ _ hs hp _ => hasEnumeration_of_storedAs hs hp) r hr

end Classes.Table

namespace Endpoint

variable {o : Named} {p : Property}

theorem not_isEnum_of_mem_urlProperty (hp : p ∈ (endpointOf o).urlProperty) :
    ¬p.type.element.isEnum := by
  simp only [endpointOf, urlPropertyFor] at hp
  split at hp
  case h_1 => contradiction
  all_goals
    cases hp
    simp [stringProperty, Property.ofType, TypeRef.ofName, TypeRef.make, TypeRef.element,
      TypeRef.isEnum]

-- A request knows no values to choose from.
theorem choices_eq_none_of_mem_properties (hp : p ∈ Request.properties (endpointOf o)) :
    p.choices = none := by
  have he : p.enumValues = none := by
    rcases List.mem_append.mp hp with hp | hp
    · have hp : urlPropertyFor o = some p := Option.mem_toList.mp hp
      rw [urlPropertyFor] at hp
      split at hp <;> cases hp <;> rfl
    · obtain ⟨_, _, rfl⟩ := Option.map_eq_some_iff.mp <| Option.mem_toList.mp hp
      rfl
  simp [Property.choices, he]

end Endpoint

namespace Blueprint

-- What the files of a blueprint declare for each other: models and tables, the enumerations of models,
-- and the storage interfaces.
inductive Offers (b : Blueprint) (s : LanguageSettings) : Import → Prop
  | model {d i} : d ∈ b.graph.definitions → (s.modelClass d).Exports s.language.lexicon i →
    Offers b s i
  | table {d i} : d ∈ b.graph.definitions → d.needsTable →
    (s.tableClass b.graph d).Exports s.language.lexicon i → Offers b s i
  | interface {n} : b.graph.definitions.any (·.needsTable) → n ∈ [databaseType, rowType] →
    Offers b s (s.databaseImport n)

variable {passes : Nat} {document : Document} {b : Blueprint} {s : LanguageSettings}
  {c : ClassDecl} {d : Definition} {e : Endpoint} {i : Import} {is : List Import} {n : String}
  {r : Reading} {files : List GeneratedFile}

-- What is offered stands in the file of its owner.
theorem exists_file_of_offers (hk : b.graph.IsLinked) (hf : (b.filesOf s).result = .ok files)
    (h : b.Offers s i) : ∃ f ∈ files, f.definition = i.owner := by
  obtain ⟨classes, hc, rfl⟩ := filesOf_eq_ok hf
  have hm : ∀ d ∈ b.graph.definitions, ∀ f ∈
      GeneratedFile.ofClass s.language.lexicon (s.kind .model) d.tag (s.modelClass d) ::
        if d.needsTable then [GeneratedFile.ofClass s.language.lexicon (s.kind .database) d.tag
          (s.tableClass b.graph d)] else [], f ∈ classes := by
    intro d hd f hf
    obtain ⟨own, ho, hs⟩ := GeneratedFile.exists_of_mem_ofDefinitions hc hd
    exact hs <| GeneratedFile.ofDefinition_eq_ok hk hd ho ▸ hf
  cases h
  case model d hd hi =>
    have hf := hm d hd _ List.mem_cons_self
    exact ⟨_, List.mem_append_left _ <| List.mem_append_left _ hf, hi.right.left.symm⟩
  case table d hd ht hi =>
    have hf := hm d hd
    rw [if_pos ht] at hf
    have hf := hf _ <| List.mem_cons_of_mem _ <| List.mem_singleton_self _
    exact ⟨_, List.mem_append_left _ <| List.mem_append_left _ hf, hi.right.left.symm⟩
  case interface n ha hn =>
    have hn : n ∈ (GeneratedFile.ofInterfaces s.language.lexicon (s.kind .database)).map
      (·.definition) := hn
    obtain ⟨f, hf, hn⟩ := List.mem_map.mp hn
    rw [if_pos ha]
    exact ⟨f, List.mem_append_left _ <| List.mem_append_right _ hf, hn⟩

-- A class can use what is declared elsewhere if it imports it, or has the same name.
def Reaches (b : Blueprint) (s : LanguageSettings) (c : ClassDecl) (i : Import) : Prop :=
  b.Offers s i ∧ (i.name = c.name ∨ i ∈ c.imports)

theorem reaches_addImports (ho : b.Offers s i) (hi : i ∈ is) : b.Reaches s (c.addImports is) i := by
  refine ⟨ho, ?_⟩
  rw [ClassDecl.name_addImports, ClassDecl.mem_imports_addImports]
  by_cases hn : i.name = c.name
  case pos => exact .inl hn
  case neg => exact .inr <| .inr ⟨hi, hn⟩

theorem offers_modelImport (h : b.graph.contains n) : b.Offers s (s.modelImport n) := by
  obtain ⟨d, hd⟩ := exists_of_contains h
  refine .model (mem_of_get? hd) ?_
  simp [ClassDecl.Exports, LanguageSettings.modelImport, Import.ofClass, name_of_get? hd]

theorem offers_databaseImport (hd : d ∈ b.graph.definitions) (ht : d.needsTable) :
    b.Offers s (s.databaseImport (tableClassName d.name)) := by
  refine .table hd ht ?_
  simp [ClassDecl.Exports, LanguageSettings.databaseImport, Import.ofClass]

theorem offers_of_mem_tableTypes (hd : d ∈ b.graph.definitions) (ht : d.needsTable)
    (hi : i ∈ s.tableTypes d) : b.Offers s i := by
  have ha : b.graph.definitions.any (·.needsTable) := List.any_eq_true.mpr ⟨d, hd, ht⟩
  rcases List.mem_cons.mp hi with rfl | hi
  · exact offers_modelImport <| contains_of_get? <| get?_of_mem hd
  · have hi : i ∈ [databaseType, rowType].map s.databaseImport := hi
    obtain ⟨n, hn, rfl⟩ := List.mem_map.mp hi
    exact .interface ha hn

theorem offers_of_mem_mentions {lex : Lexicon} {model database : ClassSettings}
    (hs : r.IsServed lex model database b.graph) (he : r.HasEnumeration s b.graph)
    (hi : i ∈ r.mentions s) : b.Offers s i := by
  cases r
  case choice owner property cell =>
    obtain ⟨d, hd, hm⟩ := he
    rw [Reading.mentions] at hi
    split at hi <;> cases List.mem_singleton.mp hi
    case isTrue  => exact offers_modelImport <| contains_of_get? hd
    case isFalse hn =>
      refine .model (mem_of_get? hd) ⟨?_, ?_, .inr ⟨hn, hm⟩⟩
      · rw [LanguageSettings.package_modelClass]
      · rw [LanguageSettings.name_modelClass, name_of_get? hd]
  case object =>
    obtain ⟨_, ht, _⟩ := hs
    cases List.mem_singleton.mp hi
    exact offers_modelImport <| contains_of_get? ht
  case found =>
    obtain ⟨_, ht, hn, _⟩ := hs
    cases List.mem_singleton.mp hi
    exact name_of_get? ht ▸ offers_databaseImport (mem_of_get? ht) hn
  all_goals contradiction

theorem resolves_of_mem_types {t : TypeRef} (h : ofDocument passes document = .ok b)
    (he : e ∈ b.endpoints) (ht : t ∈ e.types) : b.graph.resolves t := by
  obtain ⟨g, hs⟩ := exists_synthesizes h
  obtain ⟨created, g₁, more, g₂, hn, hm, hb⟩ := hs.stages h
  have hr := (ofNamed_eq_ok plainName_of_mem_nameAll hn).resolves t <|
    List.mem_flatMap.mpr ⟨e, he, ht⟩
  have hr := (GraphM.settle_ok hm).left.extends.resolves hr
  rw [hb]
  simpa only [DefinitionGraph.resolves, (alike_linked g₂).contains_eq] using hr

-- A type that is neither native nor an enumeration is the one of a definition.
theorem contains_of_resolves {g : DefinitionGraph} {t : TypeRef} (h : g.resolves t)
    (hn : ¬t.element.isNative) (he : ¬t.element.isEnum) : g.contains t.element.name := by
  simpa [DefinitionGraph.resolves, TypeRef.isScalarElement, hn, he] using h

theorem reaches_of_mem_typeNames_modelClass (hb : b.graph.IsBuilt) (hd : d ∈ b.graph.definitions)
    (hn : n ∈ (s.modelClass d).typeNames) : n ∈ (s.modelClass d).enums.map (·.name) ∨
      b.Reaches s (s.modelClass d) (s.modelImport n) ∨
      n = arrayName ∧ ∃ p ∈ d.properties, p.type = .named arrayName true ∧ p.enumValues = none := by
  obtain ⟨p, hp, hn⟩ := exists_of_mem_typeNames_modelClass hn
  rcases of_mem_namedTypes_declaredType hn with ⟨hc, rfl⟩ | ⟨hc, hs, rfl⟩
  case inl => exact .inl <| mem_enums_modelClass hp hc
  refine .inr ?_
  by_cases he : p.type.element.isEnum
  case pos =>
    have hl := hb.listed _ d (get?_of_mem hd) p hp
    have ht := (hl.isSome_choices_or he).resolve_left <| by simp [hc]
    refine .inr ⟨by rw [ht]; rfl, p, hp, ht, ?_⟩
    simpa [Property.choices, he] using hc
  case neg =>
    have hr := contains_of_resolves (hb.resolves _ d (get?_of_mem hd) p hp) hs he
    refine .inl <| reaches_addImports (offers_modelImport hr) ?_
    refine List.mem_flatMap.mpr ⟨p, hp, List.mem_map_of_mem <| List.mem_filter.mpr ⟨hn, ?_⟩⟩
    simp [Model.enumOf?, hc]

theorem reaches_of_mem_typeNames_requestClass (h : ofDocument passes document = .ok b)
    (he : e ∈ b.endpoints) (hn : n ∈ (s.requestClass e).typeNames) :
    b.Reaches s (s.requestClass e) (s.modelImport n) ∨
      ∃ p ∈ e.body, p.type.element.isEnum ∧ p.type.element.name = n := by
  obtain ⟨p, hp, hn⟩ := exists_of_mem_typeNames_requestClass hn
  have hr : b.graph.resolves p.type := by
    refine resolves_of_mem_types h he ?_
    rcases List.mem_append.mp hp with hp | hp <;> simp_all [Endpoint.types]
  obtain ⟨o, _, rfl⟩ := List.mem_map.mp <| endpoints_eq h ▸ he
  rcases of_mem_namedTypes_declaredType hn with ⟨hc, _⟩ | ⟨_, hs, rfl⟩
  case inl => simp [choices_eq_none_of_mem_properties hp] at hc
  by_cases he : p.type.element.isEnum
  case pos =>
    refine .inr ⟨p, ?_, he, rfl⟩
    refine (List.mem_append.mp hp).elim (fun hu => absurd he ?_) Option.mem_toList.mp
    exact not_isEnum_of_mem_urlProperty <| Option.mem_toList.mp hu
  case neg =>
    refine .inl <| reaches_addImports (offers_modelImport <| contains_of_resolves hr hs he) ?_
    exact List.mem_map_of_mem <| List.mem_flatMap.mpr ⟨p, hp, hn⟩

theorem reaches_of_mem_tableTypes (hd : d ∈ b.graph.definitions) (ht : d.needsTable)
    (hi : i ∈ s.tableTypes d) : b.Reaches s (s.tableClass b.graph d) i :=
  reaches_addImports (offers_of_mem_tableTypes hd ht hi) <| List.mem_append_left _ hi

theorem reaches_of_mem_mentions (hb : b.graph.IsBuilt) (hd : d ∈ b.graph.definitions)
    (hr : r ∈ (rowReading b.graph d).parts) (hi : i ∈ r.mentions s) :
    b.Reaches s (s.tableClass b.graph d) i := by
  have hd := get?_of_mem hd
  have hs : r.IsServed s.language.lexicon (s.kind .model) (s.kind .database) b.graph :=
    isServed_rowReading hb.linked hd hr
  refine reaches_addImports (offers_of_mem_mentions hs (hasEnumeration_rowReading hd hr) hi) ?_
  rcases List.mem_cons.mp <| mentions_subset_imports s _ r hr hi with rfl | hi
  · exact List.mem_cons_self
  · exact List.mem_append_right _ hi

-- Every type that a class declares its members with is reached by the class, and so is everything that
-- the reader of a table constructs or calls, at any depth. What is reached is declared in the file of its
-- owner, and the class imports it unless it has the name of the class. Out of reach are only types of
-- enumerations that do not list their values: bodies of requests, and arrays that do not tell what they
-- hold.
theorem reaches_of_ofDocument_eq_ok (h : ofDocument passes document = .ok b)
    (s : LanguageSettings) :
    (∀ files, (b.filesOf s).result = .ok files →
      ∀ i, b.Offers s i → ∃ f ∈ files, f.definition = i.owner) ∧
    (∀ d ∈ b.graph.definitions, ∀ n ∈ (s.modelClass d).typeNames,
      n ∈ (s.modelClass d).enums.map (·.name) ∨
        b.Reaches s (s.modelClass d) (s.modelImport n) ∨
        n = arrayName ∧
          ∃ p ∈ d.properties, p.type = .named arrayName true ∧ p.enumValues = none) ∧
    (∀ e ∈ b.endpoints, ∀ n ∈ (s.requestClass e).typeNames,
      b.Reaches s (s.requestClass e) (s.modelImport n) ∨
        ∃ p ∈ e.body, p.type.element.isEnum ∧ p.type.element.name = n) ∧
    ∀ d ∈ b.graph.definitions, d.needsTable → ∀ c,
      (Table.classOf s.language.lexicon (s.kind .model) (s.kind .database) b.graph d).result =
        .ok c →
      (c.typeNames ⊆ (s.tableTypes d).map (·.name) ∧ ∀ i ∈ s.tableTypes d, b.Reaches s c i) ∧
      ∀ r ∈ (rowReading b.graph d).parts, r.HasEnumeration s b.graph ∧
        ∀ i ∈ r.mentions s, b.Reaches s c i := by
  have hb := isBuilt_of_ofDocument_eq_ok h
  refine ⟨fun _ hf _ => exists_file_of_offers hb.linked hf,
    fun d hd n => reaches_of_mem_typeNames_modelClass hb hd,
    fun e he n => reaches_of_mem_typeNames_requestClass h he, fun d hd ht c hc => ?_⟩
  obtain rfl := eq_linkedClass_of_result_eq_ok hb.linked (get?_of_mem hd) hc
  exact ⟨⟨typeNames_tableClass_subset, fun i => reaches_of_mem_tableTypes hd ht⟩, fun r hr =>
    ⟨hasEnumeration_rowReading (get?_of_mem hd) hr, fun i => reaches_of_mem_mentions hb hd hr⟩⟩

theorem reaches_orderDocument : ∃ c,
    (classOf .kotlin (.standard .kotlin .model) (.standard .kotlin .database) orderGraph
      orderGraph.definitions[0]).result = .ok c ∧
    (⟨orderGraph, []⟩ : Blueprint).Reaches (.standard .kotlin) c (.ofClass "model" "Address") ∧
    (⟨orderGraph, []⟩ : Blueprint).Reaches (.standard .kotlin) c
      (.ofClass "database" "ItemTableSchema") := by
  have hk := (isBuilt_of_ofDocument_eq_ok ofDocument_orderDocument).linked
  have hd : orderGraph.get? "Order" = some orderGraph.definitions[0] := rfl
  have hc := @result_classOf_eq_ok orderGraph _ _ .kotlin (.standard .kotlin .model)
    (.standard .kotlin .database) hk hd <| by decide +kernel
  have h := reaches_of_ofDocument_eq_ok ofDocument_orderDocument (.standard .kotlin)
  have hr := (h.right.right.right _ (List.getElem_mem _) rfl _ hc).right
  let address := orderGraph.definitions[0].properties[1]
  let items := orderGraph.definitions[0].properties[3]
  obtain ⟨_, ha⟩ : ∃ parts, storageOf orderGraph orderGraph.size "Order" address =
      .flattened "Address" parts := by
    rw [storageOf]
    exact ⟨_, rfl⟩
  have hpa : address ∈ orderGraph.definitions[0].properties := List.getElem_mem _
  have hpi : items ∈ orderGraph.definitions[0].properties := List.getElem_mem _
  exact ⟨_, hc, (hr _ <| readingOf_mem_parts hpa ha).right _ <| List.mem_singleton_self _,
    (hr _ <| readingOf_mem_parts hpi storageOf_orderItems).right _ <| List.mem_singleton_self _⟩

-- The table class of a pet has the name of the model of one of its fields. A pet has a property, and a
-- note a body, that is an enumeration by its type but does not list its values.
def hiddenDocument : Document :=
  let marks := mapOf [("type", .str "of/array"), ("enum", .seq [.str "a"]),
    ("items", entryOf "type" "string")]
  let pet := objectOf [("id", entryOf "type" "integer"),
    ("petTableSchema", objectOf [("name", entryOf "type" "string")]), ("marks", marks)]
  let note := mapOf [("name", .str "note"), ("in", .str "body"),
    ("schema", mapOf [("type", .str "file"), ("enum", .seq [.str "a"])])]
  { documentOf [("Pet", pet)] with
    paths := [(.str "/notes", mapOf [("post", mapOf [("parameters", .seq [note])])])] }

theorem schemas_hiddenDocument : hiddenDocument.schemas =
    [⟨"Pet", [.ofType "id" (.named "integer" false) false,
      { Property.ofType "petTableSchema" (.named "object" false) false with
        fields := [.ofType "name" (.named "string" false) false] },
      .ofType "marks" (.named "array" true) false]⟩] := by
  with_unfolding_all rfl

theorem operations_hiddenDocument : hiddenDocument.operations =
    [⟨"/notes", .post, none, [⟨"note", .body, false, .named "file" true, []⟩], []⟩] := by
  with_unfolding_all rfl

def hiddenGraph : DefinitionGraph where
  definitions := [
    .make "Pet" [
      .ofType "id" (.named "integer" false) false,
      .ofType "petTableSchema" (.named "PetTableSchema" false) false,
      .ofType "marks" (.named "array" true) false],
    { Definition.make "PetTableSchema" [.ofType "name" (.named "string" false) false] with
      sharesTable := true }]
  nodup := by decide

def hiddenEndpoint : Endpoint :=
  endpointOf ⟨⟨"/notes", .post, none, [⟨"note", .body, false, .named "file" true, []⟩], []⟩,
    "PostNotes", none⟩

theorem ofDocument_hiddenDocument :
    ofDocument 3 hiddenDocument = .ok ⟨hiddenGraph, [hiddenEndpoint]⟩ := by
  rw [ofDocument, initialGraph, assemble, schemas_hiddenDocument, operations_hiddenDocument]
  rfl

-- A class that mentions a name has nothing to find under it.
def Misses (b : Blueprint) (s : LanguageSettings) (c : ClassDecl) (name : String) : Prop :=
  name ≠ c.name ∧ name ∉ c.enums.map (·.name) ∧ ∀ i ∈ c.imports, i.name = name → ¬b.Offers s i

theorem name_of_offers_hiddenGraph
    (h : Offers ⟨hiddenGraph, [hiddenEndpoint]⟩ (.standard .java) i) :
    i.name ∈ ["Pet", "PetTableSchema", "Database", "Row"] := by
  have hl : (LanguageSettings.standard .java).language.lexicon.nestsEnums := rfl
  cases h
  case model d hd hi =>
    have hn : ∀ d ∈ hiddenGraph.definitions, d.name ∈ ["Pet", "PetTableSchema"] := by decide
    rw [hi.right.right.resolve_right (·.left hl), LanguageSettings.name_modelClass]
    exact List.mem_append_left ["Database", "Row"] <| hn d hd
  case table d hd ht hi =>
    have hn : ∀ d ∈ hiddenGraph.definitions, d.needsTable → tableClassName d.name =
      "PetTableSchema" := by decide
    rw [hi.right.right.resolve_right (·.left hl), LanguageSettings.name_tableClass, hn d hd ht]
    decide
  case interface hn => exact List.mem_append_right ["Pet", "PetTableSchema"] hn

-- In Java, a pet mentions the type of its hash code and the one of its enumeration, and a note that of
-- its body, all of which nothing declares. The reader of the table does not import the model that it
-- constructs, for the table class has the same name.
theorem misses_hiddenDocument :
    ofDocument 3 hiddenDocument = .ok ⟨hiddenGraph, [hiddenEndpoint]⟩ ∧
    (∃ m ∈ ((LanguageSettings.standard .java).modelClass hiddenGraph.definitions[0]).methods,
      m.returns = .named "int" false) ∧
    "array" ∈ ((LanguageSettings.standard .java).modelClass hiddenGraph.definitions[0]).typeNames ∧
    (∀ n ∈ ["int", "array"], Misses ⟨hiddenGraph, [hiddenEndpoint]⟩ (.standard .java)
      ((LanguageSettings.standard .java).modelClass hiddenGraph.definitions[0]) n) ∧
    "file" ∈ ((LanguageSettings.standard .java).requestClass hiddenEndpoint).typeNames ∧
    Misses ⟨hiddenGraph, [hiddenEndpoint]⟩ (.standard .java)
      ((LanguageSettings.standard .java).requestClass hiddenEndpoint) "file" ∧
    (∃ fields guard, .object "PetTableSchema" fields guard ∈
      (rowReading hiddenGraph hiddenGraph.definitions[0]).parts) ∧
    ∃ c, (classOf Language.java.lexicon (.standard .java .model) (.standard .java .database)
        hiddenGraph hiddenGraph.definitions[0]).result = .ok c ∧
      c.package = "database" ∧ ∀ i ∈ c.imports, i.name ≠ "PetTableSchema" := by
  have hk := (isBuilt_of_ofDocument_eq_ok ofDocument_hiddenDocument).linked
  have hd : hiddenGraph.get? "Pet" = some hiddenGraph.definitions[0] := rfl
  have hc := @result_classOf_eq_ok hiddenGraph _ _ Language.java.lexicon (.standard .java .model)
    (.standard .java .database) hk hd <| by decide +kernel
  have ho : ∀ n ∈ ["int", "array", "file"], ∀ i : Import, i.name = n →
      ¬Offers ⟨hiddenGraph, [hiddenEndpoint]⟩ (.standard .java) i := by
    rintro _ hn i rfl h
    have ha : ∀ n ∈ ["int", "array", "file"], n ∉ ["Pet", "PetTableSchema", "Database", "Row"] := by
      decide
    exact ha _ hn <| name_of_offers_hiddenGraph h
  let schema := hiddenGraph.definitions[0].properties[1]
  obtain ⟨_, hs⟩ : ∃ parts, storageOf hiddenGraph hiddenGraph.size "Pet" schema =
      .flattened "PetTableSchema" parts := by
    rw [storageOf]
    exact ⟨_, rfl⟩
  have hp : schema ∈ hiddenGraph.definitions[0].properties := List.getElem_mem _
  refine ⟨ofDocument_hiddenDocument, ⟨_, .tail _ <| .head _, rfl⟩, by decide, ?_, by decide,
    ⟨by decide, by decide, fun i _ => ho "file" (by simp) i⟩,
    ⟨_, _, readingOf_mem_parts hp hs⟩, _, hc, ?_, by decide +kernel⟩
  · have hn : ∀ n ∈ ["int", "array"], n ≠ "Pet" := by decide
    exact fun n hm => ⟨hn n hm, List.not_mem_nil, fun i _ => ho n (List.mem_append_left ["file"] hm) i⟩
  · exact @LanguageSettings.package_tableClass (.standard .java) _ _

end Blueprint

end Classwright
