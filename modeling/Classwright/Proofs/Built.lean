import Classwright.Proofs.Blueprint
import Classwright.Proofs.Closure
import Classwright.Proofs.Graph.Edge
import Classwright.Proofs.Graph.Listed

namespace Classwright

open Schema Swagger Yaml DefinitionGraph Endpoint

namespace DefinitionGraph

structure IsBuilt (g : DefinitionGraph) : Prop where
  resolves : ∀ n d, g.get? n = some d → ∀ p ∈ d.properties, g.resolves p.type
  linked   : g.IsLinked
  listed   : g.IsListed

variable {g g' : DefinitionGraph}

theorem Alike.resolves (h : g'.Alike g)
    (hg : ∀ n d, g.get? n = some d → ∀ p ∈ d.properties, g.resolves p.type) :
    ∀ n d, g'.get? n = some d → ∀ p ∈ d.properties, g'.resolves p.type := by
  intro n d hd p hp
  obtain ⟨e, he, q, hq, hpq⟩ := h.exists_of_mem hd hp
  have ht : q.type = p.type := congrArg (·.type) hpq
  simpa only [DefinitionGraph.resolves, h.contains_eq, ht] using hg n e he q hq

theorem Alike.tabled (h : g'.Alike g) (hg : g.Tabled) : g'.Tabled := by
  intro n d' hd'
  obtain ⟨d, hd⟩ := exists_of_contains <| h.contains_eq n ▸ contains_of_get? hd'
  obtain ⟨e, he, hp, ht⟩ := h.exists_of_get? hd
  cases hd'.symm.trans he
  have hn := congrArg (List.map (·.name)) hp
  rw [List.map_map, List.map_map] at hn
  rw [ht, hg n d hd]
  exact hn ▸ Iff.rfl

end DefinitionGraph

namespace Blueprint

variable {passes : Nat} {d : Document} {b : Blueprint} {g g' : DefinitionGraph}
  {endpoints : List Endpoint}

theorem isListed_of_assemble (h : assemble passes d (initialGraph d) = .ok endpoints g') :
    g'.IsListed := by
  obtain ⟨created, g₁, h₁, h⟩ := assemble_eq_ok h
  obtain ⟨names, g₂, more, h₂, h₃⟩ := ofOperations_eq_ok h
  have hl : g₁.IsListed :=
    (isListed_ofDefinitions d.definitions).steps (GraphM.settle_ok h₁).left
  refine IsListed.steps ?_ (GraphM.settle_ok h₃).left
  refine hl.grown (ofNamed_eq_ok plainName_of_mem_nameAll h₂).grown fun a ha => ?_
  obtain ⟨o, ho, ha⟩ := List.mem_flatMap.mp ha
  exact listed_of_mem_additionsOf
    (listsFields_of_mem_ofPaths <| operation_mem_of_mem_nameAll ho) ha

theorem tabled_of_assemble (h : assemble passes d (initialGraph d) = .ok endpoints g') :
    g'.Tabled := by
  obtain ⟨created, g₁, h₁, h⟩ := assemble_eq_ok h
  obtain ⟨names, g₂, more, h₂, h₃⟩ := ofOperations_eq_ok h
  have ht : g₁.Tabled := Tabled.ofSchemas.steps (GraphM.settle_ok h₁).left
  exact ((ofNamed_eq_ok plainName_of_mem_nameAll h₂).grown.tabled ht).steps (GraphM.settle_ok h₃).left

theorem tabled_of_ofDocument_eq_ok (h : ofDocument passes d = .ok b) : b.graph.Tabled := by
  obtain ⟨endpoints, g, ha, rfl⟩ := assemble_of_ofDocument_eq_ok h
  exact (alike_linked g).tabled <| tabled_of_assemble ha

theorem isBuilt_of_ofDocument_eq_ok (h : ofDocument passes d = .ok b) : b.graph.IsBuilt := by
  obtain ⟨endpoints, g, ha, hv, rfl⟩ := exists_of_ofDocument_eq_ok h
  refine ⟨?_, isLinked_linked g, (isListed_of_assemble ha).alike <| alike_linked g⟩
  refine (alike_linked g).resolves fun n e he => ?_
  exact verifyClosed_eq_ok_iff.mp hv e (mem_of_get? he)

-- An order has an address without a table, a customer who keeps the ids of orders, and items that
-- point back at it.
def orderDocument : Document :=
  let order := entryOf "$ref" "#/definitions/Order"
  let item := entryOf "$ref" "#/definitions/Item"
  documentOf [
    ("Order", objectOf [("id", entryOf "type" "integer"),
      ("address", objectOf [("street", entryOf "type" "string")]),
      ("buyer", entryOf "$ref" "#/definitions/Customer"), ("items", arrayOf item)]),
    ("Item", objectOf [("id", entryOf "type" "string"), ("orderId", entryOf "type" "integer")]),
    ("Customer", objectOf [("id", entryOf "type" "string"), ("orders", arrayOf order)])]

theorem schemas_orderDocument : orderDocument.schemas =
    [⟨"Order", [.ofType "id" (.named "integer" false) false,
        { Property.ofType "address" (.named "object" false) false with
          fields := [.ofType "street" (.named "string" false) false] },
        .ofType "buyer" (.named "Customer" false) false,
        .ofType "items" (.holding "array" (.named "Item" false) false) false]⟩,
      ⟨"Item", [.ofType "id" (.named "string" false) false,
        .ofType "orderId" (.named "integer" false) false]⟩,
      ⟨"Customer", [.ofType "id" (.named "string" false) false,
        .ofType "orders" (.holding "array" (.named "Order" false) false) false]⟩] := by
  with_unfolding_all rfl

-- Its graph: the address has become a definition, and all relationships are edges.
def orderGraph : DefinitionGraph where
  definitions := [
    { Definition.make "Order" [
        .ofType "id" (.named "integer" false) false,
        .ofType "address" (.named "Address" false) false,
        { Property.ofType "buyer" (.named "Customer" false) false with
          refersTo := some ⟨"Customer", 0⟩ },
        .ofType "items" (.holding "array" (.named "Item" false) false) false] with
      edges := [⟨"Customer", "orders", .oneToN⟩] },
    { Definition.make "Item" [
        .ofType "id" (.named "string" false) false,
        { Property.ofType "orderId" (.named "integer" false) false with
          refersTo := some ⟨"Item", 0⟩ }] with
      edges := [⟨"Order", "orderId", .nToOne⟩] },
    { Definition.make "Customer" [
        .ofType "id" (.named "string" false) false,
        { Property.ofType "orders" (.holding "array" (.named "Order" false) false) false with
          refersTo := some ⟨"Order", 0⟩ }] with
      edges := [⟨"Order", "buyer", .oneToOne⟩] },
    { Definition.make "Address" [.ofType "street" (.named "string" false) false] with
      sharesTable := true }]
  nodup := by decide

theorem ofDocument_orderDocument : ofDocument 3 orderDocument = .ok ⟨orderGraph, []⟩ := by
  rw [ofDocument, initialGraph, schemas_orderDocument]
  rfl

end Blueprint

end Classwright
