import Classwright.Classes.Model
import Classwright.Proofs.Table.Print

namespace Classwright

open Schema Code Settings Template DefinitionGraph

namespace Classes

-- The constructor of a model class takes the properties of its definition, in order.
theorem exists_constructor (lex : Lexicon) (s : ClassSettings) (d : Definition) :
    ∃ k, (Model.classOf lex s d).constructor = some k ∧ k.className = d.name ∧
      k.parameters.map (·.name) = d.properties.map (·.name) := by
  refine ⟨_, ClassDecl.constructor_addImports, rfl, ?_⟩
  simp [Function.comp_def, Model.fieldOf, Field.make, Field.toParameter]

namespace Table

-- A reading apart from those of its fields.
def Reading.tops : Reading → List Reading
  | .present reading => [.present reading, reading]
  | reading          => [reading]

-- What a reading calls is declared. A finder takes the database and the key that it is given, and a
-- constructor the fields of the object, each under the name of its parameter.
def Reading.IsServed (lex : Lexicon) (model database : ClassSettings) (g : DefinitionGraph) :
    Reading → Prop
  | .found target finder key => ∃ t, g.get? target = some t ∧ t.needsTable ∧
    ∃ m ∈ (linkedClass lex model database g t).methods, m.name = finder.methodName ∧
      m.parameters.length = 2 ∧ ∀ table, (Reading.found target finder key).print lex table =
        lex.staticCall (linkedClass lex model database g t).name m.name
          ["db", key.print lex table]
  | .object definition fields guard => ∃ t, g.get? definition = some t ∧
    ∃ k, (Model.classOf lex model t).constructor = some k ∧ k.className = definition ∧
      k.parameters.map (·.name) = fields.map Prod.fst ∧ ∀ table,
        let call := lex.constructObject k.className <|
          fields.map fun f => (f.fst, f.snd.print lex table)
        (Reading.object definition fields guard).print lex table = guard.elim call fun cell =>
          fill lex.table.nullGuard [("check", cell.print lex table), ("value", call)]
  | _ => True

variable {g : DefinitionGraph} {n owner target path : String} {p : Property} {storage : Storage}
  {parts : List (Property × Storage)} {id : Primitive} {model database : ClassSettings}
  {r reading : Reading} {required : Bool} {l : Lookup} {key : Cell} {finder : Finder}
  {t : Definition} {edge : Edge} {fields : List (String × Reading)} {guard : Option Cell}

theorem mem_tops_presentIf (h : r ∈ (Reading.presentIf required reading).tops) :
    r = .present reading ∨ r ∈ reading.tops := by
  have hr : reading ∈ reading.tops := by cases reading <;> simp [Reading.tops]
  rw [Reading.presentIf] at h
  split at h
  case isFalse => exact .inr h
  case isTrue =>
    refine (List.mem_cons.mp h).imp_right fun h => ?_
    exact List.mem_singleton.mp h ▸ hr

-- Only a reading with fields has others inside it.
theorem parts_readingOf (h : ∀ target parts, storage ≠ .flattened target parts) :
    (readingOf id path owner p storage).parts = (readingOf id path owner p storage).tops := by
  cases storage
  case flattened => exact absurd rfl <| h _ _
  case scalar =>
    simp only [readingOf, Reading.presentIf]
    split <;> split <;> rfl
  case stringList | foreignKey =>
    simp only [readingOf, Reading.presentIf]
    split <;> rfl
  all_goals rfl

-- What holds of the readings of all properties, each apart from those of its fields, holds of a reading
-- at any depth, since what is inside it belongs to properties of other definitions.
theorem forall_mem_parts {P : Reading → Prop} (h : StoredAs g owner p storage)
    (hp : p ∈ g.propertiesOf owner)
    (hP : ∀ owner p storage path, StoredAs g owner p storage → p ∈ g.propertiesOf owner →
      ∀ r ∈ (readingOf id path owner p storage).tops, P r) :
    ∀ r ∈ (readingOf id path owner p storage).parts, P r := by
  intro r hr
  have hs := h
  induction h generalizing path
  case flattened ht hps hf ih =>
    rcases List.mem_cons.mp hr with rfl | hr
    · exact hP _ _ _ path hs hp _ <| List.mem_singleton_self _
    · obtain ⟨part, hm, hr⟩ := mem_partsOfFields.mp hr
      refine ih part hm ?_ hr <| hf part hm
      rw [name_of_get? ht, mem_propertiesOf ht, ← hps]
      exact List.mem_map_of_mem hm
  all_goals
    rw [parts_readingOf] at hr
    · exact hP _ _ _ path hs hp r hr
    · simp

theorem map_fst_fieldReadings :
    (fieldReadings id path owner parts).map Prod.fst = parts.map (·.fst.name) := by
  rw [fieldReadings_eq_map, List.map_map]
  rfl

-- Methods of the same signature take as many arguments.
theorem length_parameters_eq {m m' : Method} (h : m'.signature lex = m.signature lex) :
    m'.parameters.length = m.parameters.length := by
  simpa [Method.signature] using congrArg (·.snd.length) h

-- The table class of `t` declares a finder, which takes a database and a key.
def Declares (lex : Lexicon) (model database : ClassSettings) (g : DefinitionGraph)
    (t : Definition) (finder : Finder) : Prop :=
  ∃ m ∈ (linkedClass lex model database g t).methods,
    m.name = finder.methodName ∧ m.parameters.length = 2

theorem isServed_found (ht : g.get? target = some t) (hn : t.needsTable)
    (hm : Declares lex model database g t finder) :
    (Reading.found target finder key).IsServed lex model database g := by
  obtain ⟨m, hm, hmn, hl⟩ := hm
  refine ⟨t, ht, hn, m, hm, hmn, hl, fun table => ?_⟩
  rw [Reading.print, name_linkedClass, name_of_get? ht, hmn]

theorem declares_byId : Declares lex model database g t .byId := by
  have hm : ClassContext.selectById ⟨lex, t⟩ ∈
      ClassContext.basicMethods ⟨lex, t⟩ (columns lex g t) (readings g t) := by
    simp [ClassContext.basicMethods]
  obtain ⟨m, hm, hs⟩ := exists_mem_methods <| List.mem_append_left _ hm
  exact ⟨m, hm, congrArg Prod.fst hs, length_parameters_eq hs⟩

theorem declares_of_lookupOf? (he : edge ∈ t.edges) (hl : lookupOf? g t edge = some l) :
    Declares lex model database g t l.finder := by
  have hm := List.mem_map_of_mem (f := ClassContext.lookupMethod ⟨lex, t⟩) <|
    List.mem_filterMap.mpr ⟨edge, he, hl⟩
  obtain ⟨m, hm, hs⟩ := exists_mem_methods <| List.mem_append_right _ hm
  exact ⟨m, hm, congrArg Prod.fst hs, length_parameters_eq hs⟩

theorem isServed_object (ht : g.get? n = some t)
    (hf : fields.map Prod.fst = t.properties.map (·.name)) :
    (Reading.object n fields guard).IsServed lex model database g := by
  obtain ⟨k, hk, hc, hp⟩ := exists_constructor lex model t
  have hn : k.className = n := hc.trans <| name_of_get? ht
  refine ⟨t, ht, k, hk, hn, hp.trans hf.symm, fun table => ?_⟩
  rw [print_object, printFields_eq_map, hn]

-- An array that leads to a table makes an edge there. Unless the rows of that table carry the id of its
-- owner, the edge calls for a lookup by a list of ids.
theorem exists_oneToN (hk : g.IsLinked) (hp : p ∈ g.propertiesOf owner)
    (ht : g.get? p.type.element.name = some t) (hn : t.needsTable) (ha : p.type.isArray)
    (hc : ¬carriesKeyOf t owner) : ∃ edge ∈ t.edges, edge.relationship = .oneToN := by
  have hm : ∀ edge, edgeFrom? t owner p = some edge → edge ∈ t.edges := by
    intro edge he
    have hm : edge ∈ t.edges.filter (·.definition == owner) :=
      filter_edges hk ht ▸ List.mem_filterMap.mpr ⟨p, hp, he⟩
    exact (List.mem_filter.mp hm).left
  rw [edgeFrom?, if_pos ⟨(name_of_get? ht).symm, hn⟩] at hm
  simp only [ha, Bool.not_true, Bool.false_eq_true, if_false] at hm
  split at hm
  case isTrue =>
    have := hm _ rfl
    exact absurd (List.any_eq_true.mpr ⟨_, this, by simp⟩) hc
  case isFalse => exact ⟨_, hm _ rfl, rfl⟩

theorem declares_byIdList (hk : g.IsLinked) (ht : g.get? n = some t) (he : edge ∈ t.edges)
    (hr : edge.relationship = .oneToN) : Declares lex model database g t .byIdList := by
  obtain ⟨o, ho⟩ := exists_of_contains <| contains_of_mem_edges hk ht he
  have hl : lookupOf? g t edge = some ⟨.byIdList, "ids", .string, .listed⟩ := by
    simp [lookupOf?, ho, lookup?, hr]
  exact declares_of_lookupOf? he hl

-- The edge that says that rows carry the id of their owner calls for a lookup by that id.
theorem declares_byOwner (hk : g.IsLinked) (ht : g.get? n = some t)
    (hc : carriesKeyOf t owner) : Declares lex model database g t (.byOwner owner) := by
  obtain ⟨edge, he, hc⟩ := List.any_eq_true.mp hc
  obtain ⟨hrel, rfl⟩ := by simpa using hc
  obtain ⟨o, ho⟩ := exists_of_contains <| contains_of_mem_edges hk ht he
  obtain ⟨l, hl, hf⟩ : ∃ l, lookupOf? g t edge = some l ∧ l.finder = .byOwner edge.definition := by
    simp [lookupOf?, ho, lookup?, hrel, name_of_get? ho]
  exact hf ▸ declares_of_lookupOf? he hl

-- By the way a property is stored, what its reading calls is declared. A navigation has its edge because
-- the storage was chosen for it, and a list of ids because the property itself makes one.
theorem isServed_of_storedAs (hk : g.IsLinked) (h : StoredAs g owner p storage)
    (hp : p ∈ g.propertiesOf owner) (hr : r ∈ (readingOf id path owner p storage).tops) :
    r.IsServed lex model database g := by
  cases h
  case choice | native =>
    rcases mem_tops_presentIf hr with rfl | hr
    case inl => trivial
    case inr => split at hr <;> cases List.mem_singleton.mp hr <;> trivial
  case stringList =>
    rcases mem_tops_presentIf hr with rfl | hr
    case inl => trivial
    case inr => cases List.mem_singleton.mp hr; trivial
  case flattened hps _ ht =>
    cases List.mem_singleton.mp hr
    refine isServed_object (name_of_get? ht ▸ ht) ?_
    rw [map_fst_fieldReadings, ← hps, List.map_map]
    rfl
  case foreignKey hn ht =>
    rcases mem_tops_presentIf hr with rfl | hr
    case inl => trivial
    case inr =>
      cases List.mem_singleton.mp hr
      exact isServed_found (name_of_get? ht ▸ ht) hn declares_byId
  case idList hn hc ht ha =>
    cases List.mem_singleton.mp hr
    obtain ⟨edge, he, hr⟩ := exists_oneToN hk hp ht hn ha hc
    exact isServed_found (name_of_get? ht ▸ ht) hn <| declares_byIdList hk ht he hr
  case navigation hn hc ht =>
    cases List.mem_singleton.mp hr
    exact isServed_found (name_of_get? ht ▸ ht) hn <| declares_byOwner hk ht hc
  all_goals
    cases List.mem_singleton.mp hr
    trivial

-- What holds of the readings of all properties holds of everything in the reader of a table, if it
-- holds of the object of the row.
theorem forall_mem_rowReading {P : Reading → Prop} (ht : g.get? n = some t)
    (hr : P (rowReading g t)) (hP : ∀ owner p storage path, StoredAs g owner p storage →
      p ∈ g.propertiesOf owner → ∀ r ∈ (readingOf (idType t) path owner p storage).tops, P r) :
    ∀ r ∈ (rowReading g t).parts, P r := by
  intro r hm
  rcases List.mem_cons.mp hm with rfl | hm
  case inl => exact hr
  case inr =>
    obtain ⟨part, hm, hr⟩ := mem_partsOfFields.mp hm
    obtain ⟨p, hp, rfl⟩ := List.mem_map.mp hm
    refine forall_mem_parts storedAs_storageOf ?_ hP _ hr
    rwa [name_of_get? ht, mem_propertiesOf ht]

theorem isServed_rowReading (hk : g.IsLinked) (ht : g.get? n = some t)
    (hr : r ∈ (rowReading g t).parts) : r.IsServed lex model database g := by
  refine forall_mem_rowReading ht ?_ (fun _ _ _ _ hs hp r => isServed_of_storedAs hk hs hp) r hr
  refine isServed_object (name_of_get? ht ▸ ht) ?_
  rw [readings, map_fst_fieldReadings, storedParts, List.map_map]
  rfl

end Table

end Classes

namespace Blueprint

open Text Settings Classes Classes.Table

variable {passes : Nat} {document : Swagger.Document} {b : Blueprint}

-- All calls in the reader of a table, at any depth, have their declaration. A table class has all the
-- basic methods, of which one reads a row and has the calls in it, and never two methods of the same
-- signature.
theorem isServed_of_ofDocument_eq_ok (h : ofDocument passes document = .ok b) (language : Language)
    (model database : ClassSettings) :
    let lex := language.lexicon
    (∀ d ∈ b.graph.definitions, ∀ r ∈ (rowReading b.graph d).parts,
        r.IsServed lex model database b.graph) ∧
      ∀ d ∈ b.graph.definitions, ∀ c, (classOf lex model database b.graph d).result = .ok c →
        c = linkedClass lex model database b.graph d ∧
          basicNames <+: c.methods.map (·.name) ∧ (c.methods.map (·.signature lex)).Nodup ∧
          ∃ m ∈ c.methods, m.name = "readFromDb" ∧ ∃ value,
            m.body = [ClassContext.answer ⟨lex, d⟩ value] ∧
            value = (rowReading b.graph d).print lex c.name ∧
            ∀ r ∈ (rowReading b.graph d).parts, InOrder [r.print lex c.name] value := by
  intro lex
  have hk := (isBuilt_of_ofDocument_eq_ok h).linked
  refine ⟨fun d hd r hr => isServed_rowReading hk (get?_of_mem hd) hr, fun d hd c hc => ?_⟩
  obtain rfl := eq_linkedClass_of_result_eq_ok hk (get?_of_mem hd) hc
  refine ⟨rfl, ?_, ?_, ?_⟩
  · rw [← map_name_basicMethods ⟨lex, d⟩ (columns lex b.graph d) (readings b.graph d)]
    refine List.IsPrefix.map _ ?_
    rw [linkedClass, methods_classWith]
    exact prefix_distinctMethods nodup_signature_basicMethods <| by simp
  · rw [linkedClass, methods_classWith]
    exact nodup_distinctMethods
  · obtain ⟨m, hm, hn, hb⟩ := exists_readFromDb
    exact ⟨m, hm, hn, _, hb, rfl, inOrder_parts language.showsReadings_lexicon _⟩

theorem isServed_orderDocument : ∃ r ∈ (rowReading orderGraph orderGraph.definitions[0]).parts,
    r = .found "Item" (.byOwner "Order") ⟨"id", .integer⟩ ∧
      r.IsServed .kotlin (.standard .kotlin .model) (.standard .kotlin .database) orderGraph := by
  have hp : orderGraph.definitions[0].properties[3] ∈ orderGraph.definitions[0].properties :=
    List.getElem_mem _
  have hm := readingOf_mem_parts hp storageOf_orderItems
  have hs := (isServed_of_ofDocument_eq_ok ofDocument_orderDocument .kotlin
    (.standard .kotlin .model) (.standard .kotlin .database)).left
  exact ⟨_, hm, rfl, hs _ (List.getElem_mem _) _ hm⟩

end Blueprint

end Classwright
