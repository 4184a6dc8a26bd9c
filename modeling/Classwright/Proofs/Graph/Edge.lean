import Classwright.Proofs.Graph.Link

namespace Classwright

open Schema

-- The definition and the property on which an edge of `target` is anchored.
def Edge.anchor (e : Edge) (target : String) : String × String :=
  (if e.relationship = .nToOne then target else e.definition, e.property)

namespace DefinitionGraph

variable {g g' : DefinitionGraph} {d : Definition} {p : Property} {ps : List Property} {e : Edge}
  {n m owner : String} {i j : Nat} {key : EdgeKey} {call : String × Edge}
  {before cs : List (String × Edge)} {ks : List (EdgeKey × Edge)}

-- The edge of `d` that a property of `owner` makes, if it leads to `d`.
def edgeFrom? (d : Definition) (owner : String) (p : Property) : Option Edge :=
  if p.type.element.name = d.name ∧ d.needsTable then
    some <|
      if !p.type.isArray then ⟨owner, p.name, .oneToOne⟩
      else if (d.property? (foreignKeyName owner)).isSome then ⟨owner, foreignKeyName owner, .nToOne⟩
      else ⟨owner, p.name, .oneToN⟩
  else none

theorem definition_of_edgeFrom? {e : Edge} (h : edgeFrom? d owner p = some e) :
    e.definition = owner := by
  rw [edgeFrom?] at h
  split_ifs at h <;> cases h <;> rfl

-- The edges that the properties of a graph make, each with its target, by owners and then by
-- properties.
def calls (g : DefinitionGraph) : List (String × Edge) :=
  g.names.flatMap fun o => (g.propertiesOf o).filterMap fun p =>
    (g.get? p.type.element.name).bind fun d => (edgeFrom? d o p).map (d.name, ·)

-- The keys of edges that follow others: the index of an edge is the number of those that its target
-- has before it.
def keyedAfter (before : List (String × Edge)) : List (String × Edge) → List (EdgeKey × Edge)
  | []                => []
  | (target, e) :: rest =>
    (⟨target, (before.map Prod.fst).count target⟩, e) :: keyedAfter (before ++ [(target, e)]) rest

def keyed (g : DefinitionGraph) : List (EdgeKey × Edge) :=
  keyedAfter [] g.calls

-- The key of the last edge with an anchor.
def lastOf (ks : List (EdgeKey × Edge)) (anchor : String × String) : Option EdgeKey :=
  (ks.reverse.find? fun x => x.snd.anchor x.fst.definition == anchor).map Prod.fst

def lastKey? (g : DefinitionGraph) (anchor : String × String) : Option EdgeKey :=
  lastOf g.keyed anchor

-- The link of an edge is told by its target and its anchor.
def linkOf (call : String × Edge) : Link :=
  ⟨call.fst, (call.snd.anchor call.fst).fst, call.snd⟩

theorem link?_eq_map : g.link? owner p =
    ((g.get? p.type.element.name).bind fun d => (edgeFrom? d owner p).map (d.name, ·)).map linkOf := by
  cases hd : g.get? p.type.element.name
  case none => simp [link?, needsTable, hd]
  case some d =>
    rw [link?, needsTable_of_get? hd, hd]
    have hn := name_of_get? hd
    simp only [Option.bind_some, edgeFrom?, hn, true_and]
    split_ifs <;> simp_all [linkOf, Edge.anchor]

theorem links_eq_map_calls : g.links = g.calls.map linkOf := by
  rw [links_eq_flatMap_names, calls, List.map_flatMap]
  refine List.flatMap_congr fun o _ => ?_
  rw [List.map_filterMap]
  exact List.filterMap_congr fun p _ => link?_eq_map

theorem contains_of_mem_calls {call : String × Edge} (h : call ∈ g.calls) : g.contains call.fst := by
  obtain ⟨o, _, h⟩ := List.mem_flatMap.mp h
  obtain ⟨p, _, h⟩ := List.mem_filterMap.mp h
  obtain ⟨d, hd, h⟩ := Option.bind_eq_some_iff.mp h
  obtain ⟨e, _, rfl⟩ := Option.map_eq_some_iff.mp h
  exact name_of_get? hd ▸ contains_of_get? hd

theorem referTo_eq_modify : referTo key m ps =
    ps.modify ((ps.map (·.name)).idxOf m) ({ · with refersTo := some key }) := by
  induction ps
  case nil => rfl
  case cons p ps ih =>
    rw [referTo, List.map_cons, List.idxOf_cons]
    cases p.name == m
    case true  => rfl
    case false => simp [ih]

-- All references that edges bring about in the properties of a definition.
def referToAll (ks : List (EdgeKey × Edge)) (n : String) (ps : List Property) : List Property :=
  ks.foldl (fun ps x =>
    if n = (x.snd.anchor x.fst.definition).fst then referTo x.fst x.snd.property ps else ps) ps

@[simp] theorem map_name_referTo : (referTo key m ps).map (·.name) = ps.map (·.name) := by
  induction ps
  case nil          => rfl
  case cons p ps ih => rw [referTo]; split <;> simp [ih]

theorem map_unlinkProperty_referToAll :
    (referToAll ks n ps).map unlinkProperty = ps.map unlinkProperty := by
  induction ks generalizing ps
  case nil => rfl
  case cons x ks ih =>
    rw [referToAll, List.foldl_cons, ← referToAll, ih]
    split
    case isTrue  => exact map_unlinkProperty_referTo
    case isFalse => rfl

theorem lastOf_cons {x : EdgeKey × Edge} {anchor : String × String} :
    lastOf (x :: ks) anchor = (lastOf ks anchor).or
      (if x.snd.anchor x.fst.definition = anchor then some x.fst else none) := by
  rw [lastOf, lastOf, List.reverse_cons, List.find?_append, Option.map_or]
  by_cases h : x.snd.anchor x.fst.definition = anchor <;> simp [h]

-- Properties hold properties, so this is no definitional equality.
@[simp] theorem property_eta (p : Property) :
    ⟨p.name, p.type, p.required, p.enumValues, p.default, p.fields, p.refersTo⟩ = p := by
  cases p
  rfl

-- Only the first property of a name is an anchor.
theorem getElem?_referTo : (referTo key m ps)[j]? = ps[j]?.map fun p =>
    { p with refersTo :=
        if p.name = m ∧ (ps.map (·.name)).idxOf p.name = j then some key else p.refersTo } := by
  rw [referTo_eq_modify, List.getElem?_modify]
  cases hp : ps[j]?
  case none => rfl
  case some p =>
    -- The first property of the name `m` has that name.
    have hf : (ps.map (·.name)).idxOf m = j → p.name = m := by
      rintro rfl
      obtain ⟨hl, rfl⟩ := List.getElem?_eq_some_iff.mp hp
      have hl : (ps.map (·.name)).idxOf m < (ps.map (·.name)).length := by simpa using hl
      have hm := List.getElem_idxOf hl
      rwa [List.getElem_map] at hm
    rw [Option.map_eq_map, Option.map_some, Option.map_some]
    by_cases hm : p.name = m
    case pos =>
      subst hm
      by_cases hj : (ps.map (·.name)).idxOf p.name = j <;> simp [hj]
    case neg => simp [mt hf hm, hm]

-- It refers to the last edge that it is the anchor of.
theorem getElem?_referToAll : (referToAll ks n ps)[j]? = ps[j]?.map fun p =>
    { p with refersTo :=
        if (ps.map (·.name)).idxOf p.name = j then (lastOf ks (n, p.name)).or p.refersTo
        else p.refersTo } := by
  induction ks generalizing ps
  case nil =>
    simp only [lastOf, List.reverse_nil, List.find?_nil, Option.map_none, Option.none_or, ite_self]
    cases hp : ps[j]? <;> simp [referToAll, hp]
  case cons x ks ih =>
    rw [referToAll, List.foldl_cons, ← referToAll, ih]
    split
    case isFalse hn =>
      have hl : ∀ p : Property, lastOf (x :: ks) (n, p.name) = lastOf ks (n, p.name) := by
        intro p
        rw [lastOf_cons, if_neg fun he => hn (congrArg Prod.fst he).symm, Option.or_none]
      simp only [hl]
    case isTrue hn =>
      have hl : ∀ p : Property, lastOf (x :: ks) (n, p.name) =
          (lastOf ks (n, p.name)).or (if p.name = x.snd.property then some x.fst else none) := by
        intro p
        rw [lastOf_cons, show x.snd.anchor x.fst.definition = (n, x.snd.property) from
          Prod.ext hn.symm rfl]
        simp [eq_comm]
      simp only [map_name_referTo, getElem?_referTo, Option.map_map, Function.comp_def, hl]
      congr
      funext p
      have ho : ((lastOf ks (n, p.name)).or (if p.name = x.snd.property then some x.fst else none)).or
          p.refersTo = (lastOf ks (n, p.name)).or
            (if p.name = x.snd.property then some x.fst else p.refersTo) := by
        rw [Option.or_assoc]
        split <;> rfl
      by_cases hf : (ps.map (·.name)).idxOf p.name = j <;> simp [hf, ho]

-- A definition with the edges that lead to it, and with what refers to the edges anchored on it.
def linkedBy (cs : List (String × Edge)) (d : Definition) : Definition :=
  { d with
    edges := (cs.filter (·.fst == d.name)).map (·.snd)
    properties := referToAll (keyedAfter [] cs) d.name (d.properties.map unlinkProperty) }

theorem keyedAfter_append : keyedAfter before (cs ++ [call]) =
    keyedAfter before cs ++ [(⟨call.fst, ((before ++ cs).map Prod.fst).count call.fst⟩, call.snd)] := by
  induction cs generalizing before
  case nil          => simp [keyedAfter]
  case cons c cs ih => simp [keyedAfter, ih]

theorem length_edges_linkedBy : (linkedBy cs d).edges.length = (cs.map Prod.fst).count d.name := by
  simp [linkedBy, List.count_eq_length_filter, List.filter_map, Function.comp_def]

-- One more edge comes last at its target, and its anchor refers to it.
theorem linkedBy_append : linkedBy (cs ++ [call]) d =
    { linkedBy cs d with
      edges := (linkedBy cs d).edges ++ if d.name = call.fst then [call.snd] else []
      properties :=
        if d.name = (call.snd.anchor call.fst).fst then
          referTo ⟨call.fst, (cs.map Prod.fst).count call.fst⟩ call.snd.property
            (linkedBy cs d).properties
        else (linkedBy cs d).properties } := by
  simp only [linkedBy, keyedAfter_append, referToAll, List.foldl_append, List.foldl_cons,
    List.foldl_nil, List.nil_append, List.filter_append, List.map_append, List.filter_singleton]
  by_cases h : call.fst = d.name
  case pos => simp [h]
  case neg => simp [beq_false_of_ne h, Ne.symm h]

theorem definitions_eq : g.definitions = g.names.filterMap g.get? := by
  rw [names, List.filterMap_map]
  exact (List.filterMap_congr fun d hd => get?_of_mem hd).trans List.filterMap_some |>.symm

-- A graph is told by its names and what is found under them.
theorem eq_of_get? (hn : g'.names = g.names) (h : ∀ n, g'.get? n = g.get? n) : g' = g := by
  have hd : g'.definitions = g.definitions := by
    rw [definitions_eq, definitions_eq, hn, funext h]
  cases g
  cases g'
  cases hd
  rfl

theorem get?_mapDefinitions_linkedBy :
    (g.mapDefinitions (linkedBy cs)).get? n = (g.get? n).map (linkedBy cs) := by
  rw [get?_mapDefinitions]
  rfl

theorem addLink_linkOf (hc : g.contains call.fst) :
    (g.mapDefinitions (linkedBy cs)).addLink (linkOf call) =
      g.mapDefinitions (linkedBy (cs ++ [call])) := by
  refine eq_of_get? (by simp [names_addLink]) fun n => ?_
  obtain ⟨d, hd⟩ := exists_of_contains hc
  have hr : (g.mapDefinitions (linkedBy cs)).require call.fst = .ok (linkedBy cs d) :=
    require_eq_ok_iff.mpr <| by rw [get?_mapDefinitions_linkedBy, hd]; rfl
  have hi : (linkedBy cs d).edges.length = (cs.map Prod.fst).count call.fst := by
    rw [length_edges_linkedBy, name_of_get? hd]
  simp only [addLink, linkOf, attach, hr, bind, Except.bind, pure, Except.pure, hi]
  rw [get?_modify, get?_modify, get?_mapDefinitions_linkedBy, get?_mapDefinitions_linkedBy]
  · cases hn : g.get? n
    case none   => simp
    case some e =>
      rw [← name_of_get? hn]
      simp only [Option.map_some, linkedBy_append]
      split_ifs <;> simp
  all_goals exact fun _ => rfl

-- Linking lists the edges of a graph at their targets, in order, and each anchor refers to its last
-- one. What was linked before is gone.
theorem linked_eq : g.linked = g.mapDefinitions (linkedBy g.calls) := by
  have h : ∀ cs before, (∀ call ∈ cs, g.contains call.fst) →
      (cs.map linkOf).foldl addLink (g.mapDefinitions (linkedBy before)) =
        g.mapDefinitions (linkedBy (before ++ cs)) := by
    intro cs
    induction cs
    case nil => simp
    case cons call cs ih =>
      intro before hc
      have ⟨hcall, hc⟩ := List.forall_mem_cons.mp hc
      rw [List.map_cons, List.foldl_cons, addLink_linkOf hcall, ih _ hc, List.append_assoc,
        List.singleton_append]
  rw [linked, links_eq_map_calls]
  exact h g.calls [] fun _ => contains_of_mem_calls

theorem get?_linked : g.linked.get? n = (g.get? n).map (linkedBy g.calls) := by
  rw [linked_eq, get?_mapDefinitions]
  rfl

-- The first property of a name refers to the last edge that is anchored on it, others to none.
theorem getElem?_linkedBy : (linkedBy cs d).properties[j]? = d.properties[j]?.map fun p =>
    { p with refersTo :=
        if (d.properties.map (·.name)).idxOf p.name = j then
          lastOf (keyedAfter [] cs) (d.name, p.name)
        else none } := by
  rw [linkedBy, getElem?_referToAll, List.getElem?_map, Option.map_map, List.map_map]
  simp [Function.comp_def, unlinkProperty]

theorem properties_linkedBy (hn : (d.properties.map (·.name)).Nodup) :
    (linkedBy cs d).properties = d.properties.map fun p =>
      { p with refersTo := lastOf (keyedAfter [] cs) (d.name, p.name) } := by
  refine List.ext_getElem? fun j => ?_
  rw [getElem?_linkedBy, List.getElem?_map]
  cases hp : d.properties[j]?
  case none => rfl
  case some p =>
    obtain ⟨hj, rfl⟩ := List.getElem?_eq_some_iff.mp hp
    have hi := hn.idxOf_getElem j (by simpa using hj)
    rw [List.getElem_map] at hi
    simp [hi]

-- The edges of a definition that calls make, with their keys.
theorem mem_keyedAfter : (key, e) ∈ keyedAfter before cs ↔
    ∃ k, key.index = (before.map Prod.fst).count key.definition + k ∧
      ((cs.filter (·.fst == key.definition)).map (·.snd))[k]? = some e := by
  induction cs generalizing before
  case nil => simp [keyedAfter]
  case cons call cs ih =>
    rw [keyedAfter, List.mem_cons, ih]
    obtain ⟨t, i⟩ := key
    by_cases ht : call.fst = t
    case neg => simp [ht, Ne.symm ht]
    case pos =>
      subst ht
      constructor
      · rintro (h | ⟨k, hi, he⟩)
        · cases h
          exact ⟨0, by simp, by simp⟩
        · simp only [List.map_append, List.map_cons, List.map_nil, List.count_append,
            List.count_singleton_self] at hi
          exact ⟨k + 1, by simp only; omega, by simpa using he⟩
      · rintro ⟨_ | k, hi, he⟩
        · exact .inl <| by simp_all
        · refine .inr ⟨k, ?_, by simpa using he⟩
          simp only [List.map_append, List.map_cons, List.map_nil, List.count_append,
            List.count_singleton_self] at hi ⊢
          omega

theorem calls_eq_map_links : g.calls = g.links.map fun l => (l.target, l.edge) := by
  simp [links_eq_map_calls, linkOf, Function.comp_def]

theorem Alike.calls_eq (h : g'.Alike g) (hn : g'.names = g.names) : g'.calls = g.calls := by
  rw [calls_eq_map_links, calls_eq_map_links, h.links_eq hn]

theorem names_unlinked : g.unlinked.names = g.names :=
  names_mapDefinitions ..

-- Linking starts afresh.
theorem linked_unlinked : g.unlinked.linked = g.linked := by
  refine eq_of_get? ?_ fun n => ?_
  · simp only [names_linked, names_unlinked]
  · rw [get?_linked, get?_linked, (alike_unlinked g).calls_eq names_unlinked, unlinked,
      get?_mapDefinitions, Option.map_map]
    cases g.get? n
    case none => rfl
    case some d => simp [linkedBy, keepName, Function.comp_def]

theorem unlinked_linked : g.linked.unlinked = g.unlinked := by
  refine eq_of_get? ?_ fun n => ?_
  · simp only [names_linked, names_unlinked]
  · rw [unlinked, unlinked, get?_mapDefinitions, get?_mapDefinitions, get?_linked, Option.map_map]
    cases g.get? n
    case none => rfl
    case some d => simp [keepName, linkedBy, map_unlinkProperty_referToAll, Function.comp_def]

theorem linked_linked : g.linked.linked = g.linked := by
  rw [← linked_unlinked, unlinked_linked, linked_unlinked]

-- Of the edges of a graph, those that lead to a definition.
theorem filter_calls (hd : g.get? n = some d) : (g.calls.filter (·.fst == n)).map (·.snd) =
    g.names.flatMap fun o => (g.propertiesOf o).filterMap (edgeFrom? d o) := by
  have hn := name_of_get? hd
  rw [calls, List.filter_flatMap, List.map_flatMap]
  refine List.flatMap_congr fun o _ => ?_
  rw [List.filter_filterMap, List.map_filterMap]
  refine List.filterMap_congr fun p _ => ?_
  by_cases ht : p.type.element.name = n
  case pos => cases he : edgeFrom? d o p <;> simp [ht, hd, hn, he]
  case neg =>
    have he : edgeFrom? d o p = none := if_neg fun h => ht <| h.left.trans hn
    cases hx : g.get? p.type.element.name
    case none => simp [he]
    case some x => cases hy : edgeFrom? x o p <;> simp [he, hy, name_of_get? hx, ht]

theorem edge?_linked_eq_some_iff : g.linked.edge? key = some e ↔ (key, e) ∈ g.keyed := by
  rw [edge?, get?_linked, keyed, mem_keyedAfter]
  cases hd : g.get? key.definition
  case none =>
    have hc : g.calls.filter (·.fst == key.definition) = [] := by
      refine List.filter_eq_nil_iff.mpr fun call hm he => ?_
      obtain ⟨d, hd'⟩ := exists_of_contains <| contains_of_mem_calls hm
      simp_all
    simp [hc]
  case some d => simp [linkedBy, name_of_get? hd]

-- The edges of each definition are those of the links that lead to it, in order.
def IsLinked (g : DefinitionGraph) : Prop :=
  ∀ n d, g.get? n = some d → d.edges = (g.links.filter (·.target == n)).map (·.edge)

theorem filter_links : (g.links.filter (·.target == n)).map (·.edge) =
    (g.calls.filter (·.fst == n)).map (·.snd) := by
  simp only [links_eq_map_calls, List.filter_map, List.map_map]
  rfl

theorem isLinked_linked (g : DefinitionGraph) : g.linked.IsLinked := by
  intro n d hd
  rw [get?_linked] at hd
  obtain ⟨e, he, rfl⟩ := Option.map_eq_some_iff.mp hd
  rw [links_linked, filter_links, linkedBy, name_of_get? he]

theorem edges_eq_flatMap_names (h : g.IsLinked) (hd : g.get? n = some d) :
    d.edges = g.names.flatMap fun o => (g.propertiesOf o).filterMap (edgeFrom? d o) := by
  rw [h n d hd, filter_links, filter_calls hd]

theorem contains_of_mem_edges (h : g.IsLinked) (hd : g.get? n = some d) {edge : Edge}
    (he : edge ∈ d.edges) : g.contains edge.definition := by
  rw [edges_eq_flatMap_names h hd] at he
  obtain ⟨o, ho, he⟩ := List.mem_flatMap.mp he
  obtain ⟨p, _, hp⟩ := List.mem_filterMap.mp he
  exact contains_iff.mpr <| definition_of_edgeFrom? hp ▸ ho

theorem flatMap_eq_of_nodup {α β : Type} {as : List α} {f : α → List β} {a : α} (hn : as.Nodup)
    (h : ∀ b ∈ as, b ≠ a → f b = []) (ha : a ∉ as → f a = []) : as.flatMap f = f a := by
  by_cases hm : a ∈ as
  case pos =>
    obtain ⟨before, after, rfl⟩ := List.append_of_mem hm
    obtain ⟨_, hc, hd⟩ := List.nodup_append.mp hn
    have hb : before.flatMap f = [] := List.flatMap_eq_nil_iff.mpr fun b hb =>
      h b (by simp [hb]) (hd b hb a List.mem_cons_self)
    have hf : after.flatMap f = [] := List.flatMap_eq_nil_iff.mpr fun b hb =>
      h b (by simp [hb]) fun he => (List.nodup_cons.mp hc).left <| he ▸ hb
    simp [List.flatMap_append, hb, hf]
  case neg =>
    rw [ha hm]
    exact List.flatMap_eq_nil_iff.mpr fun b hb => h b hb fun he => hm <| he ▸ hb

-- Of the edges of a definition, those from `owner` are made by the properties of `owner`.
theorem filter_edges (h : g.IsLinked) (hd : g.get? n = some d) :
    d.edges.filter (·.definition == owner) =
      (g.propertiesOf owner).filterMap (edgeFrom? d owner) := by
  have hf : ∀ o, ∀ e ∈ (g.propertiesOf o).filterMap (edgeFrom? d o), e.definition = o := by
    intro o e he
    obtain ⟨p, _, hp⟩ := List.mem_filterMap.mp he
    exact definition_of_edgeFrom? hp
  rw [edges_eq_flatMap_names h hd, List.filter_flatMap, flatMap_eq_of_nodup g.nodup_names]
  · exact List.filter_eq_self.mpr fun e he => by simp [hf _ e he]
  · exact fun o _ ho => List.filter_eq_nil_iff.mpr fun e he => by simp [hf _ e he, ho]
  · intro ho
    simp [propertiesOf, get?_eq_none_iff.mpr ho]

end DefinitionGraph

end Classwright
