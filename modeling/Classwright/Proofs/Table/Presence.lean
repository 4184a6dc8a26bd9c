import Classwright.Language.Kotlin
import Classwright.Proofs.Table.Leaf

namespace Classwright

open Schema Classes.Table

namespace DefinitionGraph

variable {g : DefinitionGraph} {n : String} {place : List Nat} {names : List String}

-- The properties on the way from a definition to a place below it.
def wayTo (g : DefinitionGraph) : String → List Nat → List Property
  | _, []         => []
  | n, i :: place => match (g.propertiesOf n)[i]? with
    | some p => p :: g.wayTo p.type.element.name place
    | none   => []

theorem KeptAt.map_name_wayTo (h : g.KeptAt n place names) :
    (g.wayTo n place).map (·.name) = names := by
  induction h
  case column hd hp _      => simp [wayTo, propertiesOf, hd, hp]
  case field hd hp _ _ ih  => simp [wayTo, propertiesOf, hd, hp, ih]

end DefinitionGraph

namespace Classes.Table

open DefinitionGraph Template

-- The value of a column in the current row; `table` is the class that holds its constant.
def Column.getter (lex : Lexicon) (table : String) (primitive : Primitive) (c : Column) : String :=
  fill (lex.table.rowGetters.get primitive) [("row", "row"), ("column", table ++ "." ++ c.constant)]

variable {g : DefinitionGraph} {d : Definition} {n owner path : String} {p : Property} {s : Storage}
  {parts : List (Property × Storage)} {lex : Lexicon} {source : Source} {id : Primitive} {i : Nat}

-- By the way a property is stored, a column at it or below it is required if the object that is written
-- is, and all properties on the way to the column are.
theorem required_columnsOfParts (hd : g.get? n = some d)
    (hps : parts.map Prod.fst = d.properties.drop i)
    (h : ∀ part ∈ parts, ∀ source, (columnsOf lex path source part.fst part.snd).map (·.required) =
      (leavesOf part.fst part.snd).map fun x => (source.field lex part.fst).required &&
        (g.wayTo part.fst.type.element.name x.fst).all (·.required)) :
    (columnsOfParts lex path source parts).map (·.required) =
      (leavesOfParts i parts).map fun x => source.required && (g.wayTo n x.fst).all (·.required) := by
  induction parts generalizing i
  case nil => rfl
  case cons part parts ih =>
    have ⟨hp, hrest⟩ := List.forall_mem_cons.mp h
    rw [List.map_cons] at hps
    have hi : (g.propertiesOf n)[i]? = some part.fst := by
      have := congrArg (·[0]?) hps.symm
      simpa [propertiesOf, hd] using this
    have hps' : parts.map Prod.fst = d.properties.drop (i + 1) := by
      simpa using congrArg List.tail hps
    rw [columnsOfParts, leavesOfParts, List.map_append, List.map_append, hp, ih hps' hrest, List.map_map]
    congr 1
    refine List.map_congr_left fun x _ => ?_
    simp [wayTo, hi, Source.field, Bool.and_assoc]

theorem required_columnsOf_scalar {primitive : Primitive} {isEnum : Bool}
    (h : (columnType? isEnum p.type.element.name).isSome) :
    (columnsOf lex path source p (.scalar primitive isEnum)).map (·.required) =
      (leavesOf p (.scalar primitive isEnum)).map fun x => (source.field lex p).required &&
        (g.wayTo p.type.element.name x.fst).all (·.required) := by
  obtain ⟨t, ht⟩ := Option.isSome_iff_exists.mp h
  simp [columnsOf, ownColumn?, ht, leavesOf, Storage.isColumn, wayTo, Source.field]

theorem StoredAs.required_columnsOf (hl : g.IsListed) (h : StoredAs g owner p s) (hp : p.Listed) :
    (columnsOf lex path source p s).map (·.required) = (leavesOf p s).map fun x =>
      (source.field lex p).required && (g.wayTo p.type.element.name x.fst).all (·.required) := by
  induction h generalizing path source
  case choice he ha => exact required_columnsOf_scalar <| isSome_columnType?_of_isEnum hp he ha
  case native hn    => exact required_columnsOf_scalar <| isSome_columnType?_of_primitive? hn
  case flattened hd hps _ ih =>
    rw [columnsOf, leavesOf, List.map_map, required_columnsOfParts (i := 0) hd hps fun part hm _ =>
      ih part hm <| listed_of_mem_parts hl hd hps hm]
    rfl
  case foreignKey id _ _ =>
    obtain ⟨t, ht⟩ := exists_columnType?_name id
    simp [columnsOf, ownColumn?, ht, leavesOf, Storage.isColumn, wayTo, Source.field]
  all_goals simp [columnsOf, ownColumn?, leavesOf, Storage.isColumn, wayTo, Source.field]

-- No column is required of an object that may be absent.
theorem StoredAs.not_required (hl : g.IsListed) (h : StoredAs g owner p s) (hp : p.Listed)
    (hr : ¬(source.field lex p).required) {c : Column} (hc : c ∈ columnsOf lex path source p s) :
    ¬c.required := by
  have hm : c.required ∈ (columnsOf lex path source p s).map (·.required) := List.mem_map_of_mem hc
  rw [h.required_columnsOf hl hp] at hm
  obtain ⟨x, _, hx⟩ := List.mem_map.mp hm
  simp [← hx, hr]

-- The first of the given cells that belongs to a required column.
def firstRequired? (columns : List Column) (cells : List Cell) : Option Cell :=
  ((columns.zip cells).find? (·.fst.required)).map (·.snd)

theorem firstRequired?_append {columns columns' : List Column} {cells cells' : List Cell}
    (h : columns.length = cells.length) :
    firstRequired? (columns ++ columns') (cells ++ cells') =
      (firstRequired? columns cells).or (firstRequired? columns' cells') := by
  simp only [firstRequired?, List.zip_append h, List.find?_append, Option.map_or]

theorem firstRequired?_eq_none_iff {columns : List Column} {cells : List Cell}
    (h : columns.length = cells.length) :
    firstRequired? columns cells = none ↔ ∀ c ∈ columns, ¬c.required := by
  have hc : columns = (columns.zip cells).map Prod.fst := (List.map_fst_zip h.le).symm
  rw [firstRequired?, Option.map_eq_none_iff, List.find?_eq_none]
  conv_rhs => rw [hc]
  simp only [List.forall_mem_map]

theorem StoredAs.length_columnsOf (hl : g.IsListed) (h : StoredAs g owner p s) (hp : p.Listed) :
    (columnsOf lex path source p s).length = (readingOf id path owner p s).cells.length := by
  have hn : (columnsOf lex path source p s).map (·.name) =
      (readingOf id path owner p s).cells.map (·.column) := h.names_columnsOf hl hp
  simpa using congrArg List.length hn

-- The check for presence looks at the first required column, as it passes over the properties that are
-- not required, and no column of these is.
theorem presenceOfParts?_eq (hl : g.IsListed) (hr : source.required)
    (hs : ∀ part ∈ parts, StoredAs g owner part.fst part.snd ∧ part.fst.Listed)
    (h : ∀ part ∈ parts, (source.field lex part.fst).required → presence? path part.fst part.snd =
      firstRequired? (columnsOf lex path source part.fst part.snd)
        (readingOf id path owner part.fst part.snd).cells) :
    presenceOfParts? path parts = firstRequired? (columnsOfParts lex path source parts)
      (cellsOfFields (fieldReadings id path owner parts)) := by
  induction parts
  case nil => rfl
  case cons part parts ih =>
    have ⟨⟨hsp, hlp⟩, hss⟩ := List.forall_mem_cons.mp hs
    have ⟨hp, hps⟩ := List.forall_mem_cons.mp h
    have hlen : (columnsOf lex path source part.fst part.snd).length =
        (readingOf id path owner part.fst part.snd).cells.length := hsp.length_columnsOf hl hlp
    rw [presenceOfParts?, columnsOfParts, fieldReadings, cellsOfFields, firstRequired?_append hlen,
      ih hss hps]
    congr 1
    by_cases hq : part.fst.required
    case pos => rw [if_pos hq, hp <| by simp [Source.field, hr, hq]]
    case neg =>
      rw [if_neg hq, eq_comm, firstRequired?_eq_none_iff hlen]
      exact fun c => hsp.not_required hl hlp (by simp [Source.field, hq])

theorem presence?_scalar {primitive : Primitive} {isEnum : Bool} (hr : (source.field lex p).required)
    (h : (columnType? isEnum p.type.element.name).isSome) : presence? path p (.scalar primitive isEnum) =
      firstRequired? (columnsOf lex path source p (.scalar primitive isEnum))
        (readingOf id path owner p (.scalar primitive isEnum)).cells := by
  obtain ⟨t, ht⟩ := Option.isSome_iff_exists.mp h
  have hr : source.required ∧ p.required := by simpa [Source.field] using hr
  simp only [presence?, columnsOf, ownColumn?, ht, readingOf, cells_presentIf]
  split <;> simp [Reading.cells, firstRequired?, hr]

theorem StoredAs.presence?_eq (hl : g.IsListed) (h : StoredAs g owner p s) (hp : p.Listed)
    (hr : (source.field lex p).required) : presence? path p s =
      firstRequired? (columnsOf lex path source p s) (readingOf id path owner p s).cells := by
  induction h generalizing path source
  case choice he ha => exact presence?_scalar hr <| isSome_columnType?_of_isEnum hp he ha
  case native hn    => exact presence?_scalar hr <| isSome_columnType?_of_primitive? hn
  case flattened hd hps hs ih =>
    refine presenceOfParts?_eq hl hr (fun part hm => ⟨hs part hm, listed_of_mem_parts hl hd hps hm⟩) ?_
    exact fun part hm hr => ih part hm (listed_of_mem_parts hl hd hps hm) hr
  all_goals simp only [Source.field, Bool.and_eq_true] at hr
  case foreignKey id _ _ =>
    obtain ⟨t, ht⟩ := exists_columnType?_name id
    simp [presence?, columnsOf, ownColumn?, ht, readingOf, Reading.cells, firstRequired?, hr]
  all_goals
    simp [presence?, columnsOf, ownColumn?, readingOf, Reading.cells, firstRequired?, hr]

theorem storedAs_and_listed_of_mem (hl : g.IsListed) (hd : g.get? n = some d) :
    ∀ part ∈ storedParts g d, StoredAs g d.name part.fst part.snd ∧ part.fst.Listed := by
  intro part hm
  obtain ⟨p, hp, rfl⟩ := List.mem_map.mp hm
  exact ⟨storedAs_storageOf, hl n d hd p hp⟩

-- Every column of a row is read from a cell of its own, in the same order.
theorem map_name_columnsOfParts (hl : g.IsListed) (hd : g.get? n = some d) :
    (columnsOfParts lex path source (storedParts g d)).map (·.name) =
      (cellsOfFields (fieldReadings id path d.name (storedParts g d))).map (·.column) := by
  refine names_columnsOfParts fun part hm source => ?_
  have ⟨hs, hp⟩ := storedAs_and_listed_of_mem hl hd part hm
  exact hs.names_columnsOf hl hp

-- A column is named after all properties on the way to it, and required if all of them are.
theorem flags_columnsOfParts (hl : g.IsListed) (hd : g.get? n = some d)
    (he : errorsOfParts (storedParts g d) = []) :
    (columnsOfParts lex path source (storedParts g d)).map (fun c => (c.name, c.required)) =
      (leaves g d).map fun x => (path ++ columnName ((g.wayTo n x.fst).map (·.name)),
        source.required && (g.wayTo n x.fst).all (·.required)) := by
  have hs := storedAs_and_listed_of_mem hl hd
  have hr : (columnsOfParts lex path source (storedParts g d)).map (·.required) =
      (leaves g d).map fun x => source.required && (g.wayTo n x.fst).all (·.required) :=
    required_columnsOfParts hd (by simp [storedParts, Function.comp_def]) fun part hm _ =>
      (hs part hm).left.required_columnsOf hl (hs part hm).right
  have hn : (columnsOfParts lex path source (storedParts g d)).map (·.name) =
      (leaves g d).map fun x => path ++ columnName ((g.wayTo n x.fst).map (·.name)) := by
    have hk : (columnsOfParts lex path source (storedParts g d)).map (fun c => (c.name, c.isId)) =
        (leaves g d).map (keyOf path) := keys_columnsOfParts fun part hm _ =>
      (hs part hm).left.keys_columnsOf hl (hs part hm).right
    have hk := congrArg (List.map Prod.fst) hk
    rw [List.map_map, List.map_map] at hk
    refine hk.trans <| List.map_congr_left fun x hx => ?_
    rw [((mem_leaves_iff hd he).mp hx).map_name_wayTo]
    rfl
  rw [← List.zip_map', hn, hr]
  exact List.zip_map'

theorem presenceOfParts?_storedParts (hl : g.IsListed) (hd : g.get? n = some d)
    (hr : source.required) : presenceOfParts? path (storedParts g d) =
      firstRequired? (columnsOfParts lex path source (storedParts g d))
        (cellsOfFields (fieldReadings id path d.name (storedParts g d))) := by
  have hs := storedAs_and_listed_of_mem hl hd
  exact presenceOfParts?_eq hl hr hs fun part hm hr =>
    (hs part hm).left.presence?_eq hl (hs part hm).right hr

theorem map_print_firstRequired? {columns : List Column} {cells : List Cell} (table : String)
    (h : columns.map (·.name) = cells.map (·.column)) :
    (firstRequired? columns cells).map (·.print lex table) =
      ((columns.zip cells).find? (·.fst.required)).map fun x =>
        x.fst.getter lex table x.snd.primitive := by
  have hz : ∀ x ∈ columns.zip cells, x.snd.column = x.fst.name := by
    have : List.Forall₂ (fun c cell => cell.column = c.name) columns cells := by
      rw [← List.forall₂_eq_eq_eq, List.forall₂_map_left_iff, List.forall₂_map_right_iff] at h
      exact h.imp fun _ _ => Eq.symm
    exact fun x hx => (List.forall₂_iff_zip.mp this).right hx
  rw [firstRequired?, Option.map_map]
  refine Option.map_congr fun x hx => ?_
  simp [Cell.print, Column.getter, Column.constant, hz x <| List.mem_of_find?_eq_some hx]

end Classes.Table

namespace Blueprint

open Classes.Table

variable {passes : Nat} {document : Swagger.Document} {b : Blueprint} {d : Definition} {n : String}

-- A definition whose columns come to an end is found to be there by the first required one of them. Each
-- column belongs to a leaf of the definition and is read from one cell; it is required exactly if all
-- properties on the way to the leaf are, in an object that is required itself.
theorem presence_of_ofDocument_eq_ok (h : ofDocument passes document = .ok b)
    (hd : b.graph.get? n = some d) (hn : ¬b.graph.Recurs n) (lex : Lexicon) (path : String)
    (source : Source) (id : Primitive) :
    let parts := storedParts b.graph d
    let columns := columnsOfParts lex path source parts
    let cells := cellsOfFields (fieldReadings id path d.name parts)
    errorsOfParts parts = [] ∧
      (∀ x, x ∈ leaves b.graph d ↔ b.graph.KeptAt n x.fst x.snd) ∧
      columns.map (fun c => (c.name, c.required)) = (leaves b.graph d).map (fun x =>
        (path ++ columnName ((b.graph.wayTo n x.fst).map (·.name)),
          source.required && (b.graph.wayTo n x.fst).all (·.required))) ∧
      columns.map (·.name) = cells.map (·.column) ∧
      (source.required →
        (∀ table, (presenceOfParts? path parts).map (·.print lex table) =
          ((columns.zip cells).find? (·.fst.required)).map fun x =>
            x.fst.getter lex table x.snd.primitive) ∧
        (presenceOfParts? path parts = none ↔ ∀ c ∈ columns, ¬c.required)) := by
  have ⟨hr, _, hl⟩ := isBuilt_of_ofDocument_eq_ok h
  have he := errorsOfParts_eq_nil_of_not_recurs hr hd hn
  intro parts columns cells
  have hc : columns.map (·.name) = cells.map (·.column) := map_name_columnsOfParts hl hd
  refine ⟨he, fun x => mem_leaves_iff hd he, flags_columnsOfParts hl hd he, hc, fun hs => ?_⟩
  have hp : presenceOfParts? path parts = firstRequired? columns cells :=
    presenceOfParts?_storedParts hl hd hs
  rw [hp]
  refine ⟨fun table => map_print_firstRequired? table hc, ?_⟩
  exact firstRequired?_eq_none_iff <| by simpa using congrArg List.length hc

-- The schema of an object that requires some of its fields.
def requiring (required : List String) (fields : List (String × Yaml.Value)) : Yaml.Value :=
  .map [(.str "required", .seq <| required.map .str),
    (.str "properties", .map <| fields.map fun (name, schema) => (.str name, schema))]

-- A shop whose address has to have a place, and the place its two numbers.
def shopDocument : Swagger.Document :=
  let number := entryOf "type" "number"
  let place := requiring ["lat", "long"] [("lat", number), ("long", number)]
  documentOf [("Shop", objectOf [("id", entryOf "type" "integer"),
    ("address", requiring ["place"] [("zip", entryOf "type" "string"), ("place", place)])])]

theorem schemas_shopDocument : shopDocument.schemas =
    [⟨"Shop", [.ofType "id" (.named "integer" false) false,
      { Property.ofType "address" (.named "object" false) false with
        fields := [.ofType "zip" (.named "string" false) false,
          { Property.ofType "place" (.named "object" false) true with
            fields := [.ofType "lat" (.named "number" false) true,
              .ofType "long" (.named "number" false) true] }] }]⟩] := by
  with_unfolding_all rfl

def shopGraph : DefinitionGraph where
  definitions := [
    .make "Shop" [.ofType "id" (.named "integer" false) false,
      .ofType "address" (.named "Address" false) false],
    { Definition.make "Address" [.ofType "zip" (.named "string" false) false,
        .ofType "place" (.named "Place" false) true] with sharesTable := true },
    { Definition.make "Place" [.ofType "lat" (.named "number" false) true,
        .ofType "long" (.named "number" false) true] with sharesTable := true }]
  nodup := by decide

theorem ofDocument_shopDocument : ofDocument 3 shopDocument = .ok ⟨shopGraph, []⟩ := by
  rw [ofDocument, initialGraph, schemas_shopDocument]
  rfl

theorem presence_shopDocument : ∃ d, shopGraph.get? "Address" = some d ∧
    (columnsOfParts .kotlin "address_" ⟨"item.address", true, true⟩ (storedParts shopGraph d)).map
        (fun c => (c.name, c.required)) =
      [("address_zip", false), ("address_place_lat", true), ("address_place_long", true)] ∧
    (presenceOfParts? "address_" (storedParts shopGraph d)).map (·.print .kotlin "ShopTableSchema") =
      some "row.getDouble(ShopTableSchema.ADDRESS_PLACE_LAT_FIELD)" := by
  have hd : shopGraph.get? "Address" = some shopGraph.definitions[1] := rfl
  have he : errorsOfParts (storedParts shopGraph shopGraph.definitions[1]) = [] := by decide +kernel
  have hn := (hasFiniteRow_of_errorsOfParts_eq_nil hd he).not_recurs
  obtain ⟨_, _, hc, _, hp⟩ := presence_of_ofDocument_eq_ok ofDocument_shopDocument hd hn .kotlin
    "address_" ⟨"item.address", true, true⟩ .integer
  refine ⟨_, hd, hc.trans ?_, ((hp rfl).left "ShopTableSchema").trans ?_⟩
  · decide +kernel
  · decide +kernel

end Blueprint

end Classwright
