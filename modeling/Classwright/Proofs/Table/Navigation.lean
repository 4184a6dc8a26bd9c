import Classwright.Language.Kotlin
import Classwright.Proofs.Table.Class
import Classwright.Proofs.Text.Literal

namespace Classwright

namespace Classes.Table

open Schema Code Settings DefinitionGraph

namespace Condition

theorem text_holds {column : String} : (holds column).text = sqlIdentifier column ++ " = ?" :=
  rfl

theorem text_namedBy {table column : String} : (namedBy table column).text =
    idName ++ " IN (SELECT " ++ sqlIdentifier column ++ " FROM " ++ sqlIdentifier table ++ " WHERE " ++
      idName ++ " = ?)" :=
  rfl

-- The text of a condition on a column of its own table is not that of a condition on another table,
-- since they end differently.
theorem text_holds_ne_text_namedBy {column table column' : String} :
    (holds column).text ≠ (namedBy table column').text := by
  intro h
  have hl : " = ?".toList = [' ', '=', ' '] ++ ['?'] := by decide
  have hr : " = ?)".toList = [' ', '=', ' ', '?'] ++ [')'] := by decide
  have h := congrArg String.toList h
  rw [text_holds, text_namedBy, String.toList_append, String.toList_append, hl, hr,
    ← List.append_assoc, ← List.append_assoc] at h
  simpa using (List.append_inj' h rfl).right

end Condition

namespace ClassContext

variable {ctx : ClassContext} {c c' : Condition} {x y : String}

-- The text of a query tells its condition.
theorem text_eq_of_answer_selected
    (h : ctx.answer (ctx.selected c x) = ctx.answer (ctx.selected c' y)) : c.text = c'.text := by
  have hi : ∀ a b c : String, ", ".intercalate [a, b, c] = a ++ ", " ++ b ++ ", " ++ c :=
    fun _ _ _ => rfl
  simp only [answer, selected, call, Lexicon.returnStatement, Lexicon.statement, Lexicon.staticCall,
    Lexicon.commaList, Statement.line.injEq, hi, String.append_assoc, String.append_right_inj] at h
  exact Lexicon.eq_of_stringLiteral_append h

end ClassContext

variable {g : DefinitionGraph} {o t : Definition} {p : Property} {edge : Edge} {l : Lookup}
  {id : Primitive} {lex : Lexicon} {model database : ClassSettings} {m : Method} {name : String}

-- The property of `t` that holds the id of its owner decides how the items of `o` are found.
def keyType (t o : Definition) : Primitive :=
  ((t.property? (foreignKeyName o.name)).bind (·.type.primitive?)).getD .string

def keyLookup (t o : Definition) : Lookup :=
  ⟨.byOwner o.name, foreignKeyName o.name, keyType t o, .holds (Naming.snake (foreignKeyName o.name))⟩

-- A property of `o` that is no array finds its object by the id of `o`, too.
def directLookup (o : Definition) (p : Property) (id : Primitive) : Lookup :=
  ⟨.byOwner o.name, foreignKeyName o.name, id, .namedBy (tableName o.name) (Naming.snake p.name)⟩

-- The lookup for a property of `o` if items of `t` carry the id of `o`.
def lookupFrom? (t o : Definition) (p : Property) : Option Lookup :=
  if p.type.element.name = t.name then
    if p.type.isArray then some (keyLookup t o) else (idType? o).map (directLookup o p)
  else none

theorem methodName_byOwner_injective {n n' : String}
    (h : (Finder.byOwner n).methodName = (Finder.byOwner n').methodName) : n = n' := by
  simpa [Finder.methodName] using h

-- The lookups by an owner have no name of other methods, as long as the owner has a name.
theorem methodName_byOwner_ne {n : String} (hn : n ≠ "")
    (hm : name ∈ Finder.byIdList.methodName :: basicNames) : (Finder.byOwner n).methodName ≠ name := by
  have hs : ∀ name ∈ Finder.byIdList.methodName :: basicNames,
      name = (Finder.byOwner "").methodName ∨ ¬"selectBy".toList <+: name.toList := by
    decide
  rintro rfl
  cases hs _ hm
  case inl h => exact hn <| methodName_byOwner_injective h
  case inr h => exact h <| by simp [Finder.methodName, String.toList_append]

-- A lookup that has the name of those of `o` is for an edge that comes from `o`.
theorem definition_eq_of_lookupOf? (ho : o.name ≠ "") (hl : lookupOf? g t edge = some l)
    (hm : l.finder.methodName = (Finder.byOwner o.name).methodName) : edge.definition = o.name := by
  obtain ⟨owner, hg, hl⟩ := Option.bind_eq_some_iff.mp hl
  have hn := name_of_get? hg
  rw [lookup?] at hl
  split at hl
  case h_1 =>
    cases hl
    exact absurd hm.symm <| methodName_byOwner_ne ho List.mem_cons_self
  case h_2 =>
    cases hl
    exact hn.symm.trans <| methodName_byOwner_injective hm
  case h_3 =>
    split at hl
    case isTrue =>
      obtain ⟨_, _, rfl⟩ := Option.map_eq_some_iff.mp hl
      exact hn.symm.trans <| methodName_byOwner_injective hm
    case isFalse => cases hl

theorem finder_of_lookupFrom? (h : lookupFrom? t o p = some l) : l.finder = .byOwner o.name := by
  rw [lookupFrom?] at h
  split at h
  case isFalse => cases h
  case isTrue =>
    split at h
    case isTrue  => cases h; rfl
    case isFalse => obtain ⟨_, _, rfl⟩ := Option.map_eq_some_iff.mp h; rfl

theorem bind_edgeFrom? (ho : g.get? o.name = some o) (hn : o.needsTable) (ht : t.needsTable)
    (hk : (t.property? (foreignKeyName o.name)).isSome) :
    (edgeFrom? t o.name p).bind (lookupOf? g t) = lookupFrom? t o p := by
  rw [edgeFrom?, lookupFrom?]
  by_cases hp : p.type.element.name = t.name
  case neg => simp [hp]
  case pos =>
    by_cases ha : p.type.isArray
    case pos => simp [hp, ha, ht, hk, lookupOf?, ho, lookup?, keyLookup, keyType]
    case neg =>
      simp [hp, ha, ht, lookupOf?, ho, lookup?, hn]
      rfl

-- An owner and a definition with a property that holds its id, both with tables.
structure IsKeyed (g : DefinitionGraph) (o t : Definition) : Prop where
  owner    : g.get? o.name = some o
  target   : g.get? t.name = some t
  named    : o.name ≠ ""
  hasTable : o.needsTable ∧ t.needsTable
  key      : (t.property? (foreignKeyName o.name)).isSome

-- The name of all lookups by the id of an owner.
def ownerMethod (o : Definition) : String := (Finder.byOwner o.name).methodName

-- The lookups that have the name of those of `o`, in the order of the properties of `o`.
theorem filter_lookups (hl : g.IsLinked) (h : IsKeyed g o t) :
    (t.edges.filterMap (lookupOf? g t)).filter (·.finder.methodName == ownerMethod o) =
      o.properties.filterMap (lookupFrom? t o) := by
  have hp : g.propertiesOf o.name = o.properties := by simp [propertiesOf, h.owner]
  -- Only edges from `o` matter.
  have he : ∀ e : Edge, (lookupOf? g t e).filter (·.finder.methodName == ownerMethod o) =
      if e.definition == o.name then (lookupOf? g t e).filter (·.finder.methodName == ownerMethod o)
      else none := by
    intro e
    split
    case isTrue => rfl
    case isFalse hn =>
      refine Option.filter_eq_none_iff.mpr fun l hl hm => hn ?_
      exact beq_iff_eq.mpr <| definition_eq_of_lookupOf? h.named hl <| beq_iff_eq.mp hm
  rw [List.filter_filterMap, funext he, ← List.filterMap_filter, filter_edges hl h.target, hp,
    List.filterMap_filterMap]
  refine List.filterMap_congr fun p _ => ?_
  have hb := bind_edgeFrom? (p := p) h.owner h.hasTable.left h.hasTable.right h.key
  cases hx : edgeFrom? t o.name p <;> rw [hx] at hb
  case none => simpa using hb
  case some e =>
    rw [Option.bind_some] at hb ⊢
    rw [hb]
    cases hf : lookupFrom? t o p
    case none   => rfl
    case some l => simp [finder_of_lookupFrom? hf, ownerMethod]

theorem filter_methods (hl : g.IsLinked) (h : IsKeyed g o t) (lex : Lexicon) (cs : List Column)
    (rs : List (String × Reading)) :
    (ClassContext.basicMethods ⟨lex, t⟩ cs rs ++
      (t.edges.filterMap (lookupOf? g t)).map (ClassContext.lookupMethod ⟨lex, t⟩)).filter
        (·.name == ownerMethod o) =
      (o.properties.filterMap (lookupFrom? t o)).map (ClassContext.lookupMethod ⟨lex, t⟩) := by
  have hb : (ClassContext.basicMethods ⟨lex, t⟩ cs rs).filter (·.name == ownerMethod o) = [] := by
    refine List.filter_eq_nil_iff.mpr fun m hm he => ?_
    have hn : m.name ∈ basicNames :=
      map_name_basicMethods ⟨lex, t⟩ cs rs ▸ List.mem_map_of_mem hm
    exact methodName_byOwner_ne h.named (List.mem_cons_of_mem _ hn) (beq_iff_eq.mp he).symm
  rw [List.filter_append, hb, List.nil_append, List.filter_map, ← filter_lookups hl h]
  rfl

-- Of the methods that have the name of the lookups of `o`, the first of each signature is declared.
theorem mem_methods_iff (hl : g.IsLinked) (h : IsKeyed g o t) (hm : m.name = ownerMethod o) :
    m ∈ (linkedClass lex model database g t).methods ↔
      ((o.properties.filterMap (lookupFrom? t o)).map (ClassContext.lookupMethod ⟨lex, t⟩)).find?
        (·.signature lex == m.signature lex) = some m := by
  rw [linkedClass, methods_classWith, mem_distinctMethods,
    ← filter_methods hl h lex (columns lex g t) (readings g t), List.find?_filter]
  have hs : ∀ m' : Method,
      decide ((m'.name == ownerMethod o) = true ∧ (m'.signature lex == m.signature lex) = true) =
        (m'.signature lex == m.signature lex) := by
    intro m'
    by_cases he : m'.signature lex = m.signature lex
    case pos => simp [he, show m'.name = ownerMethod o from (congrArg Prod.fst he).trans hm]
    case neg => simp [he]
  simp only [hs, List.not_mem_nil, not_false_eq_true, true_and]

-- The text of a nullable native type.
def keyText (lex : Lexicon) (id : Primitive) : String := (TypeExpr.native id true).print lex

-- The signature of a lookup by the id of `o`; lookups differ in nothing but the type of the id.
def ownerSignature (lex : Lexicon) (o : Definition) (id : Primitive) : String × List String :=
  (ownerMethod o, [(TypeExpr.named databaseType false).print lex, keyText lex id])

theorem ownerSignature_eq_iff {id' : Primitive} :
    ownerSignature lex o id = ownerSignature lex o id' ↔ keyText lex id = keyText lex id' := by
  simp [ownerSignature]

theorem signature_keyLookup : (ClassContext.lookupMethod ⟨lex, t⟩ (keyLookup t o)).signature lex =
    ownerSignature lex o (keyType t o) :=
  rfl

theorem signature_directLookup :
    (ClassContext.lookupMethod ⟨lex, t⟩ (directLookup o p id)).signature lex =
      ownerSignature lex o id :=
  rfl

-- A method that answers with the rows that hold its parameter in a column.
def ClassContext.SelectsBy (ctx : ClassContext) (m : Method) (column parameter : String) : Prop :=
  m.body = [ctx.answer (ctx.selected (.holds column) parameter)]

theorem not_selectsBy_directLookup {ctx : ClassContext} {column parameter : String} :
    ¬ctx.SelectsBy (ctx.lookupMethod (directLookup o p id)) column parameter := by
  intro h
  have h := (List.cons.inj h).left
  exact Condition.text_holds_ne_text_namedBy (ClassContext.text_eq_of_answer_selected h).symm

-- The items of `t` are found by nothing but their foreign key: if `o` has a direct lookup, too, that
-- takes the same type of id, and comes after the lookup for an array.
def FindsByKey (lex : Lexicon) (o t : Definition) : Prop :=
  ∀ id, idType? o = some id → (∃ p ∈ o.properties, p.type.element.name = t.name ∧ ¬p.type.isArray) →
    keyText lex (keyType t o) = keyText lex id ∧
      ∃ p, o.properties.find? (·.type.element.name == t.name) = some p ∧ p.type.isArray

theorem lookupFrom?_of_ne (h : p.type.element.name ≠ t.name) : lookupFrom? t o p = none :=
  if_neg h

theorem lookupFrom?_of_isArray (h : p.type.element.name = t.name) (ha : p.type.isArray) :
    lookupFrom? t o p = some (keyLookup t o) := by
  rw [lookupFrom?, if_pos h, if_pos ha]

theorem lookupFrom?_of_not_isArray (h : p.type.element.name = t.name) (ha : ¬p.type.isArray)
    (hi : idType? o = some id) : lookupFrom? t o p = some (directLookup o p id) := by
  rw [lookupFrom?, if_pos h, if_neg ha, hi]
  rfl

-- The first lookup is that of the first property that leads to `t`, if that has one.
theorem head?_lookups (hp : o.properties.find? (·.type.element.name == t.name) = some p)
    (hl : lookupFrom? t o p = some l) :
    (o.properties.filterMap (lookupFrom? t o)).head? = some l := by
  rw [List.head?_filterMap]
  obtain ⟨hn, before, after, hs, hb⟩ := List.find?_eq_some_iff_append.mp hp
  have hb : ∀ q ∈ before, lookupFrom? t o q = none :=
    fun q hq => lookupFrom?_of_ne <| by simpa using hb q hq
  rw [hs, List.findSome?_append, List.findSome?_eq_none_iff.mpr hb]
  simp [hl]

theorem mem_lookups (hm : l ∈ o.properties.filterMap (lookupFrom? t o)) : l = keyLookup t o ∨
    ∃ p ∈ o.properties, p.type.element.name = t.name ∧ ¬p.type.isArray ∧
      ∃ id, idType? o = some id ∧ l = directLookup o p id := by
  obtain ⟨p, hp, hl⟩ := List.mem_filterMap.mp hm
  rw [lookupFrom?] at hl
  split at hl
  case isFalse => cases hl
  case isTrue hn =>
    split at hl
    case isTrue => exact .inl (Option.some_inj.mp hl).symm
    case isFalse ha =>
      obtain ⟨id, hi, rfl⟩ := Option.map_eq_some_iff.mp hl
      exact .inr ⟨p, hp, hn, ha, id, hi, rfl⟩

-- Each lookup has a method of its signature.
theorem exists_ownerMethod (lex : Lexicon) (model database : ClassSettings) (hl : g.IsLinked)
    (h : IsKeyed g o t) (hm : l ∈ o.properties.filterMap (lookupFrom? t o)) :
    ∃ m ∈ (linkedClass lex model database g t).methods, m.name = ownerMethod o ∧
      m.signature lex = (ClassContext.lookupMethod ⟨lex, t⟩ l).signature lex := by
  have hf := filter_methods hl h lex (columns lex g t) (readings g t)
  have hm : ClassContext.lookupMethod ⟨lex, t⟩ l ∈ _ := hf ▸ List.mem_map_of_mem hm
  obtain ⟨hm, hn⟩ := List.mem_filter.mp hm
  obtain ⟨m, hm, hs⟩ := exists_mem_methods hm
  exact ⟨m, hm, (congrArg Prod.fst hs).trans <| beq_iff_eq.mp hn, hs⟩

theorem exists_lookup_of_mem_methods (hl : g.IsLinked) (h : IsKeyed g o t)
    (hm : m ∈ (linkedClass lex model database g t).methods) (hn : m.name = ownerMethod o) :
    ∃ l ∈ o.properties.filterMap (lookupFrom? t o), ClassContext.lookupMethod ⟨lex, t⟩ l = m :=
  List.mem_map.mp <| List.mem_of_find?_eq_some <| (mem_methods_iff hl h hn).mp hm

-- If the first lookup has the signature of a method that is declared, it is that method.
theorem eq_of_head? (hl : g.IsLinked) (h : IsKeyed g o t) (hm : m.name = ownerMethod o)
    (hd : m ∈ (linkedClass lex model database g t).methods)
    (hh : (o.properties.filterMap (lookupFrom? t o)).head? = some l)
    (hs : (ClassContext.lookupMethod ⟨lex, t⟩ l).signature lex = m.signature lex) :
    m = ClassContext.lookupMethod ⟨lex, t⟩ l := by
  have hf := (mem_methods_iff hl h hm).mp hd
  obtain ⟨ls, hk⟩ := List.head?_eq_some_iff.mp hh
  rw [hk, List.map_cons, List.find?_cons_of_pos (by simpa using hs)] at hf
  exact (Option.some_inj.mp hf).symm

-- A method under the name of the lookups of `o` that selects by a column has the signature of the lookup
-- by the foreign key.
theorem signature_eq_of_selectsBy (hl : g.IsLinked) (h : IsKeyed g o t)
    (hm : m ∈ (linkedClass lex model database g t).methods) (hn : m.name = ownerMethod o)
    {column parameter : String} (hs : ClassContext.SelectsBy ⟨lex, t⟩ m column parameter) :
    m.signature lex = ownerSignature lex o (keyType t o) := by
  obtain ⟨l, hlm, rfl⟩ := exists_lookup_of_mem_methods hl h hm hn
  rcases mem_lookups hlm with rfl | ⟨_, _, _, _, _, _, rfl⟩
  · exact signature_keyLookup
  · exact absurd hs not_selectsBy_directLookup

-- If all of them do, then so does the one that has the signature of a direct lookup.
theorem findsByKey_of_selectsBy (hl : g.IsLinked) (h : IsKeyed g o t) {column parameter : String}
    (hall : ∀ m ∈ (linkedClass lex model database g t).methods, m.name = ownerMethod o →
      ClassContext.SelectsBy ⟨lex, t⟩ m column parameter) : FindsByKey lex o t := by
  rintro id hi ⟨p, hp, hn, ha⟩
  obtain ⟨m, hm, hmn, hs⟩ := exists_ownerMethod lex model database hl h <|
    List.mem_filterMap.mpr ⟨p, hp, lookupFrom?_of_not_isArray hn ha hi⟩
  rw [signature_directLookup] at hs
  have hb := hall m hm hmn
  have hk := signature_eq_of_selectsBy hl h hm hmn hb
  refine ⟨ownerSignature_eq_iff.mp <| hk.symm.trans hs, ?_⟩
  obtain ⟨q, hq⟩ := Option.isSome_iff_exists.mp <|
    List.find?_isSome (p := (·.type.element.name == t.name)).mpr ⟨p, hp, beq_iff_eq.mpr hn⟩
  have hqn : q.type.element.name = t.name := by simpa using List.find?_some hq
  refine ⟨q, hq, by_contra fun hqa => ?_⟩
  have hh := head?_lookups hq <| lookupFrom?_of_not_isArray hqn hqa hi
  have he := eq_of_head? hl h hmn hm hh <| signature_directLookup.trans hs.symm
  exact not_selectsBy_directLookup <| he ▸ hb

theorem selectsBy_of_findsByKey (hl : g.IsLinked) (h : IsKeyed g o t) (hk : FindsByKey lex o t)
    (hm : m ∈ (linkedClass lex model database g t).methods) (hmn : m.name = ownerMethod o) :
    ClassContext.SelectsBy ⟨lex, t⟩ m (Naming.snake (foreignKeyName o.name))
      (foreignKeyName o.name) := by
  obtain ⟨l, hlm, he⟩ := exists_lookup_of_mem_methods hl h hm hmn
  rcases mem_lookups hlm with rfl | ⟨p, hp, hn, ha, id, hi, rfl⟩
  · exact he ▸ rfl
  · -- A direct lookup is declared only if no array comes first, or if it takes another type.
    obtain ⟨ht, q, hq, hqa⟩ := hk id hi ⟨p, hp, hn, ha⟩
    have hqn : q.type.element.name = t.name := by simpa using List.find?_some hq
    have hh := head?_lookups hq <| lookupFrom?_of_isArray hqn hqa
    have hs : m.signature lex = ownerSignature lex o id := he ▸ signature_directLookup
    have hs := (ownerSignature_eq_iff.mpr ht).trans hs.symm
    exact eq_of_head? hl h hmn hm hh (signature_keyLookup.trans hs) ▸ rfl

-- An array of `o` is navigated if an edge of `t` says that its rows carry the id of `o`, which they do
-- under the name of the foreign key.
theorem isKeyed_of_carriesKeyOf (hl : g.IsLinked) (ho : g.get? o.name = some o)
    (ht : g.get? t.name = some t) (hn : o.name ≠ "") (hot : o.needsTable) (htt : t.needsTable)
    (hc : carriesKeyOf t o.name) : IsKeyed g o t ∧
      ∃ p ∈ o.properties, p.type.element.name = t.name ∧ p.type.isArray := by
  obtain ⟨edge, he, hc⟩ := List.any_eq_true.mp hc
  obtain ⟨hrel, hdef⟩ := by simpa using hc
  have hm : edge ∈ t.edges.filter (·.definition == o.name) :=
    List.mem_filter.mpr ⟨he, beq_iff_eq.mpr hdef⟩
  rw [filter_edges hl ht] at hm
  obtain ⟨p, hp, hpe⟩ := List.mem_filterMap.mp hm
  rw [edgeFrom?] at hpe
  split at hpe
  case isFalse => cases hpe
  case isTrue hpt =>
    split_ifs at hpe <;> cases hpe
    case pos => cases hrel
    case pos ha hk =>
      exact ⟨⟨ho, ht, hn, ⟨hot, htt⟩, hk⟩, p, (mem_propertiesOf ho).mp hp, hpt.left, by simpa using ha⟩
    case neg => cases hrel

end Classes.Table

namespace Blueprint

open Schema Swagger Settings DefinitionGraph Classes Classes.Table

variable {passes depth : Nat} {document : Document} {b : Blueprint} {o : Definition} {p : Property}
  {target owner : String}

-- If items are navigated, their table class declares the method that is called for them. All methods
-- of that name select by the foreign key of the owner exactly if it is not crossed by a property that
-- leads from the owner to the items directly.
theorem selectsBy_iff_of_storageOf (h : ofDocument passes document = .ok b)
    (ho : o ∈ b.graph.definitions) (hn : o.name ≠ "") (ht : o.needsTable)
    (hs : storageOf b.graph depth o.name p = .navigation target owner) (lex : Lexicon)
    (model database : ClassSettings) :
    ∃ t, b.graph.get? target = some t ∧ owner = o.name ∧
      (∃ m ∈ (linkedClass lex model database b.graph t).methods, m.name = ownerMethod o) ∧
      ((∀ m ∈ (linkedClass lex model database b.graph t).methods, m.name = ownerMethod o →
          ClassContext.SelectsBy ⟨lex, t⟩ m (Naming.snake (foreignKeyName o.name))
            (foreignKeyName o.name)) ↔
        FindsByKey lex o t) := by
  have hl := (isBuilt_of_ofDocument_eq_ok h).linked
  have hst : StoredAs b.graph o.name p (.navigation target owner) := hs ▸ storedAs_storageOf
  cases hst
  case navigation t htt hc htd =>
    have htd := (name_of_get? htd).symm ▸ htd
    obtain ⟨hk, q, hq, hqt, hqa⟩ := isKeyed_of_carriesKeyOf hl (get?_of_mem ho) htd hn ht htt hc
    obtain ⟨m, hm, hmn, _⟩ := exists_ownerMethod lex model database hl hk <|
      List.mem_filterMap.mpr ⟨q, hq, lookupFrom?_of_isArray hqt hqa⟩
    exact ⟨t, htd, rfl, ⟨m, hm, hmn⟩, findsByKey_of_selectsBy hl hk,
      fun hf m hm hmn => selectsBy_of_findsByKey hl hk hf hm hmn⟩

theorem selectsBy_orderDocument : ∃ t, orderGraph.get? "Item" = some t ∧
    ∀ m ∈ (linkedClass .kotlin (.standard .kotlin .model) (.standard .kotlin .database)
        orderGraph t).methods,
      m.name = "selectByOrderId" → ClassContext.SelectsBy ⟨.kotlin, t⟩ m "order_id" "orderId" := by
  have ho : orderGraph.definitions[0] ∈ orderGraph.definitions := List.getElem_mem _
  obtain ⟨t, ht, _, _, hi⟩ := selectsBy_iff_of_storageOf ofDocument_orderDocument ho (by decide) rfl
    storageOf_orderItems .kotlin (.standard .kotlin .model) (.standard .kotlin .database)
  refine ⟨t, ht, hi.mpr fun id _ hp => ?_⟩
  -- All properties that lead to items are arrays.
  cases (show orderGraph.get? "Item" = some orderGraph.definitions[1] from rfl).symm.trans ht
  exact absurd hp <| by decide

-- Here an order leads to one of its items, a gift, before it leads to all of them.
def giftDocument : Document :=
  let item := entryOf "$ref" "#/definitions/Item"
  documentOf [
    ("Order", objectOf [("id", entryOf "type" "integer"), ("gift", item), ("items", arrayOf item)]),
    ("Item", objectOf [("id", entryOf "type" "integer"), ("orderId", entryOf "type" "integer")])]

theorem schemas_giftDocument : giftDocument.schemas =
    [⟨"Order", [.ofType "id" (.named "integer" false) false,
        .ofType "gift" (.named "Item" false) false,
        .ofType "items" (.holding "array" (.named "Item" false) false) false]⟩,
      ⟨"Item", [.ofType "id" (.named "integer" false) false,
        .ofType "orderId" (.named "integer" false) false]⟩] := by
  with_unfolding_all rfl

def giftOrder : Definition :=
  .make "Order" [
    .ofType "id" (.named "integer" false) false,
    { Property.ofType "gift" (.named "Item" false) false with refersTo := some ⟨"Item", 0⟩ },
    .ofType "items" (.holding "array" (.named "Item" false) false) false]

def giftItem : Definition where
  name := "Item"
  properties := [
    .ofType "id" (.named "integer" false) false,
    { Property.ofType "orderId" (.named "integer" false) false with refersTo := some ⟨"Item", 1⟩ }]
  needsTable := true
  edges := [⟨"Order", "gift", .oneToOne⟩, ⟨"Order", "orderId", .nToOne⟩]
  sharesTable := false
  tag := none

def giftGraph : DefinitionGraph where
  definitions := [giftOrder, giftItem]
  nodup := by decide

theorem ofDocument_giftDocument : ofDocument 3 giftDocument = .ok ⟨giftGraph, []⟩ := by
  rw [ofDocument, initialGraph, schemas_giftDocument]
  rfl

-- The items of the order are navigated, but the only method under the name that is called for them
-- finds the gift.
theorem navigates_to_gift : ofDocument 3 giftDocument = .ok ⟨giftGraph, []⟩ ∧
    (∃ p ∈ giftOrder.properties,
      storageOf giftGraph giftGraph.size "Order" p = .navigation "Item" "Order") ∧
    (∃ m ∈ (linkedClass .kotlin (.standard .kotlin .model) (.standard .kotlin .database)
        giftGraph giftItem).methods, m.name = "selectByOrderId") ∧
    ∀ m ∈ (linkedClass .kotlin (.standard .kotlin .model) (.standard .kotlin .database)
        giftGraph giftItem).methods, m.name = "selectByOrderId" →
      m.body = [ClassContext.answer ⟨.kotlin, giftItem⟩ <|
        ClassContext.selected ⟨.kotlin, giftItem⟩ (.namedBy "order" "gift") "orderId"] ∧
      ¬ClassContext.SelectsBy ⟨.kotlin, giftItem⟩ m "order_id" "orderId" := by
  have hs : storageOf giftGraph giftGraph.size "Order" giftOrder.properties[2] =
      .navigation "Item" "Order" := by
    rw [storageOf]
    rfl
  have hk : IsKeyed giftGraph giftOrder giftItem := ⟨rfl, rfl, by decide, by decide, by decide⟩
  have hl : giftOrder.properties.filterMap (lookupFrom? giftItem giftOrder) =
      [directLookup giftOrder giftOrder.properties[1] .integer, keyLookup giftItem giftOrder] :=
    rfl
  have hb := (isBuilt_of_ofDocument_eq_ok ofDocument_giftDocument).linked
  refine ⟨ofDocument_giftDocument, ⟨_, List.getElem_mem _, hs⟩, ?_, fun m hm hn => ?_⟩
  · obtain ⟨m, hm, hn, _⟩ := exists_ownerMethod .kotlin (.standard .kotlin .model)
      (.standard .kotlin .database) hb hk <| hl ▸ List.mem_cons_self
    exact ⟨m, hm, hn⟩
  · -- Both lookups have the same signature, so the first one is declared.
    have hx : m = ClassContext.lookupMethod ⟨.kotlin, giftItem⟩
        (directLookup giftOrder giftOrder.properties[1] .integer) := by
      refine eq_of_head? hb hk hn hm (by rw [hl]; rfl) ?_
      obtain ⟨l, hlm, rfl⟩ := exists_lookup_of_mem_methods hb hk hm hn
      rw [hl] at hlm
      rcases List.mem_cons.mp hlm with rfl | hlm
      · rfl
      · cases List.mem_singleton.mp hlm
        rfl
    have ht : tableName "Order" = "order" := rfl
    have hf : Naming.snake "gift" = "gift" := rfl
    have hp : foreignKeyName "Order" = "orderId" := rfl
    refine ⟨?_, hx ▸ not_selectsBy_directLookup⟩
    rw [hx, ← ht, ← hf, ← hp]
    rfl

end Blueprint

end Classwright
