import Classwright.Proofs.Graph.Endpoint
import Classwright.Proofs.Graph.EndpointName

namespace Classwright

open Schema Swagger DefinitionGraph

variable {g g' : DefinitionGraph} {passes passes' : Nat} {schemas : List ObjectSchema}
  {operations : List Operation} {created : List String} {endpoints : List Endpoint}

namespace DefinitionGraph

theorem verifyClosed_eq_ok_iff :
    g.verifyClosed = .ok () ↔ ∀ d ∈ g.definitions, ∀ p ∈ d.properties, g.resolves p.type := by
  have hu : g.unresolved? = none ↔ ∀ d ∈ g.definitions, ∀ p ∈ d.properties, g.resolves p.type := by
    simp [unresolved?]
  rw [← hu, verifyClosed]
  cases g.unresolved? <;> simp

theorem wellNamed_ofSchemas
    (h : ∀ s ∈ schemas, PlainName s.name ∧
      ∀ p ∈ s.properties, Property.Deep (fun p => PlainName p.name) p) :
    (ofSchemas schemas).WellNamed where
  definitions n hn := by
    obtain ⟨s, hs, rfl⟩ := contains_ofSchemas.mp <| contains_iff.mpr hn
    exact (h s hs).left
  properties := .ofSchemas fun s hs => (h s hs).right

end DefinitionGraph

namespace Endpoint

theorem ofOperations_eq_ok (h : ofOperations passes operations g = .ok endpoints g') :
    ∃ created g₁ more, ofNamed (nameAll [] operations) g = .ok (endpoints, created) g₁ ∧
      GraphM.settle passes created g₁ = .ok more g' := by
  obtain ⟨⟨endpoints', created⟩, g₁, h₁, h⟩ := GraphM.bind_eq_ok_iff.mp h
  obtain ⟨more, g₂, h₂, h⟩ := GraphM.bind_eq_ok_iff.mp h
  obtain ⟨rfl, rfl⟩ := GraphM.pure_eq_ok_iff.mp h
  exact ⟨created, g₁, more, h₁, h₂⟩

theorem ofOperations_eq_error {e : Error} (h : ofOperations passes operations g = .error e g') :
    ofNamed (nameAll [] operations) g = .error e g' ∨
      ∃ endpoints created g₁, ofNamed (nameAll [] operations) g = .ok (endpoints, created) g₁ ∧
        GraphM.settle passes created g₁ = .error e g' := by
  rcases GraphM.bind_eq_error_iff.mp h with h | ⟨⟨endpoints, created⟩, g₁, h₁, h⟩
  · exact .inl h
  rcases GraphM.bind_eq_error_iff.mp h with h | ⟨_, _, _, h⟩
  · exact .inr ⟨endpoints, created, g₁, h₁, h⟩
  · exact absurd h GraphM.pure_ne_error

-- The endpoints leave the properties of all earlier definitions alone.
theorem retains_of_ofOperations (h : ofOperations passes operations g = .ok endpoints g') :
    g'.Retains g := by
  obtain ⟨names, g₁, more, h₁, h₂⟩ := ofOperations_eq_ok h
  have hg := (ofNamed_eq_ok plainName_of_mem_nameAll h₁).grown
  refine (GraphM.settle_ok h₂).left.retains (fun v hv => ?_) hg.retains
  exact (GraphM.owner_of_mem_settleVisits hv).elim (not_contains_of_names_eq hg.names)
    (mt hg.extends.contains)

theorem wellNamed_of_ofNamed (hw : g.WellNamed)
    (ho : ∀ o ∈ operations, AllFields (fun p => PlainName p.name) o)
    (h : ofNamed (nameAll [] operations) g = .ok (endpoints, created) g') : g'.WellNamed := by
  refine (ofNamed_eq_ok plainName_of_mem_nameAll h).grown.wellNamed hw fun a ha => ?_
  obtain ⟨o, hm, ha⟩ := List.mem_flatMap.mp ha
  exact ⟨plainName_of_mem_additionsOf (plainName_of_mem_nameAll o hm) ha,
    (ho o.operation <| operation_mem_of_mem_nameAll hm).of_addition ha⟩

-- What holds of the definitions from before the endpoints still does, since they keep their
-- properties, and the run that follows establishes it of the others.
theorem of_establishes {V : Visit → Prop} {I : DefinitionGraph → Prop}
    {R : DefinitionGraph → Property → Prop} (he : Establishes V I fun g _ p => R g p)
    (hR : ∀ n d, g.get? n = some d → ∀ p ∈ d.properties, R g p) {g₁ : DefinitionGraph}
    {more : List String} (h₁ : ofNamed (nameAll [] operations) g = .ok (endpoints, created) g₁)
    (hi : I g₁) (h₂ : GraphM.settle passes created g₁ = .ok more g')
    (hV : ∀ v ∈ GraphM.settleVisits passes created g₁, V v) {n : String} {d : Definition}
    {p : Property} (hd : g'.get? n = some d) (hp : p ∈ d.properties) : R g' p := by
  have hg := (ofNamed_eq_ok plainName_of_mem_nameAll h₁).grown
  refine he.of_settle hi h₂ hV (fun n d hm hd p hp => ?_) hd hp
  have hm : n ∈ g.names := by
    have := hg.names ▸ mem_names_of_get? hd
    exact (List.mem_append.mp this).resolve_right hm
  obtain ⟨e, he'⟩ := exists_of_mem_names hm
  obtain ⟨tag, hd'⟩ := hg.kept n e he'
  cases hd.symm.trans hd'
  exact he.keeps (n := n) (hR n e he' p hp) hg.extends

theorem settled_of_ofOperations (hw : g.WellNamed)
    (ho : ∀ o ∈ operations, AllFields (fun p => PlainName p.name) o)
    (hs : ∀ n d, g.get? n = some d → ∀ p ∈ d.properties, g.Settled p)
    (h : ofOperations passes operations g = .ok endpoints g') {n : String} {d : Definition}
    {p : Property} (hd : g'.get? n = some d) (hp : p ∈ d.properties) : g'.Settled p := by
  obtain ⟨names, g₁, more, h₁, h₂⟩ := ofOperations_eq_ok h
  exact of_establishes establishes_settled hs h₁ (wellNamed_of_ofNamed hw ho h₁) h₂
    (fun _ _ => trivial) hd hp

end Endpoint

theorem settled_of_settle_names {n : String} {d : Definition} {p : Property} (h : g.WellNamed)
    (hs : GraphM.settle passes g.names g = .ok created g') (hd : g'.get? n = some d)
    (hp : p ∈ d.properties) : g'.Settled p :=
  establishes_settled.of_settle h hs (fun _ _ => trivial)
    (fun _ _ hn hd => absurd (mem_names_of_get? hd) hn) hd hp

-- After synthesis and the endpoints, every property and every type of an endpoint resolves, and what
-- a property leads to is stored somewhere: in a table of its own or in that of an owner.
theorem closed_of_settle_of_ofOperations
    (hs : ∀ s ∈ schemas, PlainName s.name ∧
      ∀ p ∈ s.properties, Property.Deep (fun p => PlainName p.name) p)
    (ho : ∀ o ∈ operations, Endpoint.AllFields (fun p => PlainName p.name) o)
    (h₁ : GraphM.settle passes (ofSchemas schemas).names (ofSchemas schemas) = .ok created g)
    (h₂ : Endpoint.ofOperations passes' operations g = .ok endpoints g') :
    (∀ d ∈ g'.definitions, ∀ p ∈ d.properties, g'.resolves p.type) ∧ g'.verifyClosed = .ok () ∧
      (∀ d ∈ g'.definitions, ∀ p ∈ d.properties, ¬p.type.isScalarElement →
        ∀ e, g'.get? p.type.element.name = some e → ¬e.needsTable → e.sharesTable) ∧
      ∀ e ∈ endpoints, ∀ t ∈ e.types, g'.resolves t := by
  have hw := wellNamed_ofSchemas hs
  have hw₁ := hw.steps (GraphM.settle_ok h₁).left
  have hall : ∀ d ∈ g'.definitions, ∀ p ∈ d.properties, g'.Settled p :=
    fun d hd p hp => Endpoint.settled_of_ofOperations hw₁ ho
      (fun n d hd p hp => settled_of_settle_names hw h₁ hd hp) h₂ (get?_of_mem hd) hp
  refine ⟨fun d hd p hp => resolves_of_settled <| hall d hd p hp,
    verifyClosed_eq_ok_iff.mpr fun d hd p hp => resolves_of_settled <| hall d hd p hp, ?_, ?_⟩
  · intro d hd p hp hn e he ht
    obtain ⟨e', he', h⟩ := (hall d hd p hp).resolve_left hn
    cases he.symm.trans he'
    exact (h.resolve_left ht).left
  · intro e he t ht
    obtain ⟨names, g₁, more, hn, hm⟩ := Endpoint.ofOperations_eq_ok h₂
    have hd := Endpoint.ofNamed_eq_ok Endpoint.plainName_of_mem_nameAll hn
    have hr := hd.resolves t <| List.mem_flatMap.mpr ⟨e, he, ht⟩
    exact (GraphM.settle_ok hm).left.extends.resolves hr

-- A pet has a table, and a home without one; the home has an inline object.
def petSchemas : List ObjectSchema :=
  let size : Property := { Property.ofType "size" (.ofName objectName) true with
    fields := [.ofType "rooms" (.ofName "integer") true] }
  [⟨"Pet", [.ofType "id" (.ofName "string") true, .ofType "home" (.ofName "Place") true]⟩,
    ⟨"Place", [.ofType "street" (.ofName "string") true, size]⟩]

-- The response is an inline object that leads to pets.
def petOperations : List Operation :=
  let pets := TypeRef.make arrayName (some <| .ofName "Pet") false
  [⟨"/homes/{home}/pets", .get, none, [⟨"home", .path, true, .ofName "string", []⟩],
    [⟨200, some <| .ofName objectName, [.ofType "pets" pets true]⟩]⟩]

theorem closed_pets : ∃ created g endpoints g',
    GraphM.settle 3 (ofSchemas petSchemas).names (ofSchemas petSchemas) = .ok created g ∧
      Endpoint.ofOperations 3 petOperations g = .ok endpoints g' ∧
      created = ["Home", "Size"] ∧ g'.verifyClosed = .ok () := by
  obtain ⟨created, g, endpoints, g', h₁, h₂, hc⟩ : ∃ created g endpoints g',
      GraphM.settle 3 (ofSchemas petSchemas).names (ofSchemas petSchemas) = .ok created g ∧
        Endpoint.ofOperations 3 petOperations g = .ok endpoints g' ∧ created = ["Home", "Size"] :=
    ⟨_, _, _, _, rfl, rfl, rfl⟩
  have hs : ∀ s ∈ petSchemas, PlainName s.name ∧
      ∀ p ∈ s.properties, Property.Deep (fun p => PlainName p.name) p := by decide
  have ho : ∀ o ∈ petOperations, Endpoint.AllFields (fun p => PlainName p.name) o := by decide
  exact ⟨created, g, endpoints, g', h₁, h₂, hc,
    (closed_of_settle_of_ofOperations hs ho h₁ h₂).right.left⟩

end Classwright
