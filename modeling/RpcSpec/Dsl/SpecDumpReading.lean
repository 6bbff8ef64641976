import RpcSpec.Dsl.ReadKeys
import RpcSpec.Dsl.SpecDump
import RpcSpec.Foundation.Outline
set_option autoImplicit false

/-!
# Reading a schema dump

What a spec dumps is an outline, so it can be read back line by line.  The keys of its groups
are those the spec reads a request by, but for the `ledger` of a ledger selector: requests
that the dump does not tell apart the spec does not tell apart.

`readsBack` says that the dump of every spec reads back to its groups and items, and
`seesOnly_of_sameDumped` that requests which agree on the keys of the dump are answered
alike.
-/

namespace RpcSpec.Dsl

open RpcSpec.Foundation

universe u

variable {Input : Type}

/-! ## What is written is an outline -/

/-- The text of a scalar in a dump. -/
def Scalar.shown : Scalar → List Char
  | .bool value => (if value then "true" else "false").toList
  | .text value => '"' :: value.toList ++ ['"']
  | .streamed value => value.toList

/-- The values of a list, with commas between them. -/
def shownList : List Scalar → List Char
  | [] => []
  | [value] => value.shown
  | value :: next :: rest => value.shown ++ ", ".toList ++ shownList (next :: rest)

/-- The line of a parameter. -/
def Param.outline : Param → Outline
  | .param key value => .node (key.toList ++ ": ".toList ++ value.shown) []
  | .paramList key values => .node (key.toList ++ ": [".toList ++ shownList values ++ [']']) []

/-- The outline `bulletGroup` begins. -/
def groupOutline (name : String) (under : List Outline) : Outline :=
  .node ("- ".toList ++ name.toList ++ [':']) under

/-- A line of a list with nothing under it. -/
def bulletOutline (name : String) : Outline := .node ("- ".toList ++ name.toList) []

mutual

/-- The outline an item is dumped as. -/
def DumpItem.outline : DumpItem → Outline
  | .subFields kName fields => groupOutline kName (outlinesOfFields fields)
  | .subItems kName params items =>
      groupOutline kName (params.map Param.outline ++ outlinesOfItems items)
  | .wrapped kName message item => groupOutline kName
      ((if message.isEmpty then [] else [(Param.param "message" (.text message)).outline]) ++
        [item.outline])
  | .params kName params => groupOutline kName (params.map Param.outline)
  | .named kName => bulletOutline kName
  | .custom => bulletOutline "custom"

/-- The outlines of items, one below the other. -/
def outlinesOfItems : List DumpItem → List Outline
  | [] => []
  | item :: rest => item.outline :: outlinesOfItems rest

/-- The outline a subfield is dumped as. -/
def DumpFieldSpec.outline : DumpFieldSpec → Outline
  | .mk key items => groupOutline key (outlinesOfItems items)

/-- The outlines of subfields, one below the other. -/
def outlinesOfFields : List DumpFieldSpec → List Outline
  | [] => []
  | field :: rest => field.outline :: outlinesOfFields rest

end

/-- The function writes these outlines, at the indentation it finds and leaves. -/
def Prints (f : SpecDumpWriter → SpecDumpWriter) (outlines : List Outline) : Prop :=
  ∀ writer, 0 ≤ writer.indent →
    f writer = { writer with os := writer.os ++ Outline.writeAll writer.indent.toNat outlines }

namespace SpecDumpWriter

theorem writeIndent_eq (writer : SpecDumpWriter) :
    writer.writeIndent =
      { writer with os := writer.os ++ Outline.margin writer.indent.toNat } := by
  have hloop : ∀ n : Nat,
      (List.range n).foldl (fun writer _ => writer.put "  ") writer =
        { writer with os := writer.os ++ Outline.margin n } := by
    intro n
    induction n with
    | zero => simp [Outline.margin]
    | succ n ih =>
        rw [List.range_succ, List.foldl_append, ih]
        simp only [List.foldl_cons, List.foldl_nil, put, Outline.margin, List.append_assoc,
          Nat.mul_succ, ← List.replicate_append_replicate]
        rfl
  exact hloop writer.indent.toNat

/-- A scalar is written as its text. -/
theorem writeScalar_eq (writer : SpecDumpWriter) (value : Scalar) :
    writer.writeScalar value = { writer with os := writer.os ++ value.shown } := by
  cases value with
  | bool value => rfl
  | text value => simp [writeScalar, put, Scalar.shown]
  | streamed value => rfl

theorem writeScalars_false (writer : SpecDumpWriter) (values : List Scalar) :
    writer.writeScalars false values =
      { writer with os := writer.os ++ values.flatMap (", ".toList ++ ·.shown) } := by
  induction values generalizing writer with
  | nil => simp [writeScalars]
  | cons value rest ih => simp [writeScalars, writeScalar_eq, put, ih]

theorem writeScalars_true (writer : SpecDumpWriter) (values : List Scalar) :
    writer.writeScalars true values = { writer with os := writer.os ++ shownList values } := by
  have htail : ∀ (value : Scalar) (rest : List Scalar),
      shownList (value :: rest) = value.shown ++ rest.flatMap (", ".toList ++ ·.shown) := by
    intro value rest
    induction rest generalizing value with
    | nil => simp [shownList]
    | cons next rest ih => simp [shownList, ih]
  cases values with
  | nil => simp [writeScalars, shownList]
  | cons value rest => simp [writeScalars, writeScalar_eq, writeScalars_false, htail]

end SpecDumpWriter

namespace Prints

variable {f g : SpecDumpWriter → SpecDumpWriter} {outlines outlines' : List Outline}

theorem nil : Prints id [] := fun writer _ => by simp [Outline.writeAll]

/-- Printing one after the other prints the outlines one after the other. -/
theorem andThen (hf : Prints f outlines) (hg : Prints g outlines') :
    Prints (fun writer => g (f writer)) (outlines ++ outlines') := by
  intro writer hindent
  dsimp only
  rw [hf writer hindent, Outline.writeAll_append, ← List.append_assoc]
  exact hg _ hindent

/-- A group prints its outline around that of its body. -/
theorem bulletGroup (hf : Prints f outlines) (name : String) :
    Prints (·.bulletGroup name f) [groupOutline name outlines] := by
  intro writer hindent
  have hstep : (writer.indent + 1).toNat = writer.indent.toNat + 1 := by omega
  simp only [SpecDumpWriter.bulletGroup, SpecDumpWriter.writeIndent_eq, SpecDumpWriter.put,
    SpecDumpWriter.push]
  rw [hf _ (by simp only; omega)]
  simp [SpecDumpWriter.pop, Outline.writeAll, Outline.write, groupOutline, hstep]

theorem bullet (hf : Prints f []) (name : String) :
    Prints (·.bullet name f) [bulletOutline name] := by
  intro writer hindent
  simp only [SpecDumpWriter.bullet, SpecDumpWriter.writeIndent_eq, SpecDumpWriter.put,
    SpecDumpWriter.push]
  rw [hf _ (by simp only; omega)]
  simp [SpecDumpWriter.pop, Outline.writeAll, Outline.write, bulletOutline]

theorem describe (param : Param) : Prints (Param.describe · param) [param.outline] := by
  intro writer _
  cases param with
  | param key value =>
      simp [Param.describe, SpecDumpWriter.param, SpecDumpWriter.writeIndent_eq,
        SpecDumpWriter.put, SpecDumpWriter.writeScalar_eq, Param.outline, Outline.writeAll,
        Outline.write]
  | paramList key values =>
      simp [Param.describe, SpecDumpWriter.paramList, SpecDumpWriter.writeIndent_eq,
        SpecDumpWriter.put, SpecDumpWriter.writeScalars_true, Param.outline, Outline.writeAll,
        Outline.write]

theorem foldl {α : Type u} {step : SpecDumpWriter → α → SpecDumpWriter}
    {outlinesOf : α → List Outline} (h : ∀ a, Prints (step · a) (outlinesOf a)) (l : List α) :
    Prints (l.foldl step) (l.flatMap outlinesOf) := by
  induction l with
  | nil => exact nil
  | cons a rest ih => exact (h a).andThen ih

end Prints

/-- What a walk over the fields writes is what it writes for each, one after the other. -/
theorem prints_accumulate {F : Type u} {key : F → String}
    {step : SpecDumpWriter → F → SpecDumpWriter} {outlinesOf : F → List Outline}
    (h : ∀ field, Prints (step · field) (outlinesOf field)) (fields : List F) :
    Prints (accumulate key fields step) ((lastWins key fields).flatMap outlinesOf) := by
  have hwalk : accumulate key fields step = fun writer => (lastWins key fields).foldl step writer :=
    funext fun writer => accumulate_eq_foldl fields step writer
  rw [hwalk]
  exact Prints.foldl h _

theorem prints_describeParams (params : List Param) :
    Prints (describeParams params) (params.map Param.outline) := by
  have h : Prints (describeParams params) (params.flatMap fun param => [param.outline]) :=
    Prints.foldl Prints.describe params
  rwa [← List.map_eq_flatMap] at h

mutual

/-- Every item prints its outline. -/
theorem prints_dumpItem : ∀ item : DumpItem, Prints (dumpItem item) [item.outline]
  | .subFields kName fields => by
      simp only [dumpItem, DumpItem.outline]
      exact (prints_dumpFieldSpecs fields).bulletGroup kName
  | .subItems kName params items => by
      simp only [dumpItem, DumpItem.outline]
      exact ((prints_describeParams params).andThen (prints_dumpItems items)).bulletGroup kName
  | .wrapped kName message item => by
      simp only [dumpItem, DumpItem.outline]
      refine Prints.bulletGroup (Prints.andThen ?_ (prints_dumpItem item)) kName
      cases message.isEmpty with
      | true => exact Prints.nil
      | false => exact Prints.describe (.param "message" (.text message))
  | .params kName params => by
      simp only [dumpItem, DumpItem.outline]
      exact (prints_describeParams params).bulletGroup kName
  | .named kName => by
      simp only [dumpItem, DumpItem.outline]
      exact Prints.nil.bullet kName
  | .custom => by
      simp only [dumpItem, DumpItem.outline]
      exact Prints.nil.bullet "custom"

theorem prints_dumpItems : ∀ items : List DumpItem, Prints (dumpItems items) (outlinesOfItems items)
  | [] => Prints.nil
  | item :: rest => (prints_dumpItem item).andThen (prints_dumpItems rest)

/-- Every subfield prints its outline. -/
theorem prints_dumpFieldSpec : ∀ field : DumpFieldSpec, Prints (dumpFieldSpec field) [field.outline]
  | .mk key items => by
      simp only [dumpFieldSpec, DumpFieldSpec.outline]
      exact (prints_dumpItems items).bulletGroup key

theorem prints_dumpFieldSpecs : ∀ fields : List DumpFieldSpec,
    Prints (dumpFieldSpecs fields) (outlinesOfFields fields)
  | [] => Prints.nil
  | field :: rest => (prints_dumpFieldSpec field).andThen (prints_dumpFieldSpecs rest)

end

namespace ShownField

/-- The outline a bound field writes under a key. -/
def outline (shown : ShownField Input) (key : String) : Outline :=
  groupOutline key (outlinesOfItems shown.items ++ [shown.conv.outline])

def outlines (shown : ShownField Input) : List Outline :=
  match shown.field with
  | .bound field => [shown.outline field.key]
  | .aliased alternateKey field => [shown.outline field.key, shown.outline alternateKey]
  | .ledgerSelector _ =>
      [groupOutline "ledger_hash" [bulletOutline "uint256Hex"],
        groupOutline "ledger_index"
          [bulletOutline "uint32 or shortcut (validated/current/closed)"]]
  | .unbound field => [groupOutline field.key (outlinesOfItems shown.items)]

theorem prints_dump (shown : ShownField Input) (key : String) :
    Prints (shown.dump key) [shown.outline key] :=
  ((prints_dumpItems shown.items).andThen (prints_dumpItem shown.conv)).bulletGroup key

theorem prints_dumpOne (shown : ShownField Input) : Prints (dumpOne · shown) shown.outlines := by
  obtain ⟨field, items, conv, hshows⟩ := shown
  cases field with
  | bound field => exact prints_dump _ field.key
  | aliased alternateKey field =>
      exact (prints_dump _ field.key).andThen (prints_dump _ alternateKey)
  | ledgerSelector member =>
      exact ((Prints.nil.bullet "uint256Hex").bulletGroup "ledger_hash").andThen
        ((Prints.nil.bullet _).bulletGroup "ledger_index")
  | unbound field => exact prints_dumpFieldSpec (.mk field.key items)

end ShownField

/-! ## Reading a dump -/

/-- The key a group of lines is for. -/
def groupKey? (outline : Outline) : Option String :=
  match outline.text with
  | '-' :: ' ' :: name =>
      if name.getLast? = some ':' then some (String.ofList name.dropLast) else none
  | _ => none

/-- The keys of the groups that do not stand further in. -/
def dumpedKeys (dumped : List Char) : List String := (Outline.readAll dumped).filterMap groupKey?

theorem groupKey?_groupOutline (name : String) (under : List Outline) :
    groupKey? (groupOutline name under) = some name := by
  simp [groupKey?, groupOutline, Outline.text]

/-- The keys a field shows. -/
def Field.shownKeys : Field Input → List String
  | .bound field => [field.key]
  | .aliased alternateKey field => [field.key, alternateKey]
  | .ledgerSelector _ => ["ledger_hash", "ledger_index"]
  | .unbound field => [field.key]

theorem ShownField.filterMap_groupKey? (shown : ShownField Input) :
    shown.outlines.filterMap groupKey? = shown.field.shownKeys := by
  obtain ⟨field, items, conv, hshows⟩ := shown
  cases field <;>
    simp [ShownField.outlines, Field.shownKeys, ShownField.outline, groupKey?_groupOutline]

namespace ShownSpec

variable [InputAggregate Input]

/-- What the stream holds once a new writer has dumped the spec. -/
def dumped (shown : ShownSpec Input) : List Char := (shown.dump ⟨[], 0⟩).os

/-- The fields that are dispatched, with what they show. -/
def effective (shown : ShownSpec Input) : List (ShownField Input) :=
  lastWins ShownField.key shown.fields

def outlines (shown : ShownSpec Input) : List Outline :=
  shown.effective.flatMap ShownField.outlines

variable {shown : ShownSpec Input}

theorem map_field_effective (shown : ShownSpec Input) :
    shown.effective.map ShownField.field = effectiveFields shown.spec.fields := by
  rw [effectiveFields_eq_lastWins, ← shown.same, ← map_lastWins]
  rfl

theorem prints_dump (shown : ShownSpec Input) : Prints shown.dump shown.outlines :=
  prints_accumulate ShownField.prints_dumpOne shown.fields

/-- The dump of a spec is the writing of its outlines. -/
theorem dumped_eq (shown : ShownSpec Input) :
    shown.dumped = Outline.writeAll 0 shown.outlines := by
  rw [dumped, shown.prints_dump ⟨[], 0⟩ le_rfl]
  rfl

/-- A dump, read back by the indentation of its lines. -/
structure ReadsBack (shown : ShownSpec Input) : Prop where
  /-- what the fields that are dispatched show, in their order, overridden ones left out -/
  outlines : Outline.readAll shown.dumped = shown.outlines
  keys : dumpedKeys shown.dumped = (effectiveFields shown.spec.fields).flatMap Field.shownKeys

/-- The dump of a spec can be read back, whatever its items are and however they nest. -/
theorem readsBack (h : Outline.AllPlain shown.outlines) : shown.ReadsBack := by
  have hread : Outline.readAll shown.dumped = shown.outlines := by
    rw [dumped_eq, Outline.readAll_writeAll h]
  refine ⟨hread, ?_⟩
  rw [dumpedKeys, hread, outlines, ← map_field_effective, List.flatMap_map, List.filterMap_flatMap]
  exact List.flatMap_congr fun f _ => f.filterMap_groupKey?

end ShownSpec

/-- The dump of a spec without bound fields can be read back too. -/
theorem readAll_dumpRpcSpec {fields : List DumpFieldSpec}
    (h : Outline.AllPlain ((lastWins DumpFieldSpec.key fields).map DumpFieldSpec.outline)) :
    Outline.readAll (dumpRpcSpec fields ⟨[], 0⟩).os =
      (lastWins DumpFieldSpec.key fields).map DumpFieldSpec.outline := by
  have hprints : Prints (dumpRpcSpec fields)
      ((lastWins DumpFieldSpec.key fields).flatMap fun field => [field.outline]) :=
    prints_accumulate prints_dumpFieldSpec fields
  rw [← List.map_eq_flatMap] at hprints
  rw [hprints ⟨[], 0⟩ le_rfl]
  exact Outline.readAll_writeAll h

/-! ## What a dump says of the spec -/

/-- The key a guard is shown to ask for. -/
def guardKey? (outline : Outline) : Option String :=
  match outline.text with
  | 'k' :: 'e' :: 'y' :: ':' :: ' ' :: '"' :: name => some (String.ofList name.dropLast)
  | _ => none

/-- The keys of the guards in the groups that do not stand further in. -/
def dumpedGuards (dumped : List Char) : List String :=
  (Outline.readAll dumped).flatMap fun group => group.under.flatMap fun item =>
    if item.text = "- ifAbsent:".toList then item.under.filterMap guardKey? else []

namespace Field

/-- A guard of the field asks for the key, on one of the servers at least. -/
def AsksFor (key : String) : Field Input → Prop
  | .bound field => anyGuardsKey key field.items = true
  | .aliased _ field => anyGuardsKey key field.items = true
  | .ledgerSelector _ => False
  | .unbound _ => False

/-- A guard of the field asks for the key on both servers. -/
def AsksOutright (key : String) : Field Input → Prop
  | .bound field => .guard (.ifAbsent key) ∈ field.items
  | .aliased _ field => .guard (.ifAbsent key) ∈ field.items
  | .ledgerSelector _ => False
  | .unbound _ => False

end Field

theorem ShowsAll.ifAbsent_mem {α : Type} {items : List (Item α)} {shown : List DumpItem}
    {guardKey : String} (h : ShowsAll items shown) (hmem : .guard (.ifAbsent guardKey) ∈ items) :
    .params "ifAbsent" [.param "key" (.text guardKey)] ∈ shown := by
  induction items generalizing shown with
  | nil => cases hmem
  | cons item rest ih =>
      cases h with
      | cons hitem hrest =>
          rcases List.mem_cons.mp hmem with rfl | hmem
          · cases hitem
            exact List.mem_cons_self
          · exact List.mem_cons_of_mem _ (ih hrest hmem)

theorem mem_outlinesOfItems {item : DumpItem} {items : List DumpItem} (h : item ∈ items) :
    item.outline ∈ outlinesOfItems items := by
  induction items with
  | nil => cases h
  | cons first rest ih =>
      rcases List.mem_cons.mp h with rfl | h
      · exact List.mem_cons_self
      · exact List.mem_cons_of_mem _ (ih h)

theorem ShownField.ifAbsent_mem {shown : ShownField Input} {guardKey : String}
    (h : shown.field.AsksOutright guardKey) :
    ∃ group ∈ shown.outlines,
      (DumpItem.params "ifAbsent" [.param "key" (.text guardKey)]).outline ∈ group.under := by
  obtain ⟨field, items, conv, hshows⟩ := shown
  cases field with
  | bound field =>
      refine ⟨_, List.mem_singleton_self _, ?_⟩
      exact List.mem_append_left _ (mem_outlinesOfItems (ShowsAll.ifAbsent_mem hshows h))
  | aliased alternateKey field =>
      refine ⟨_, List.mem_cons_self, ?_⟩
      exact List.mem_append_left _ (mem_outlinesOfItems (ShowsAll.ifAbsent_mem hshows h))
  | ledgerSelector member => cases h
  | unbound field => cases h

namespace ShownSpec

variable [InputAggregate Input] {shown : ShownSpec Input}

theorem mem_dumpedGuards (h : Outline.AllPlain shown.outlines) {field : Field Input}
    (hmem : field ∈ effectiveFields shown.spec.fields) {key : String}
    (hasks : field.AsksOutright key) : key ∈ dumpedGuards shown.dumped := by
  rw [← map_field_effective] at hmem
  obtain ⟨f, hf, rfl⟩ := List.mem_map.mp hmem
  obtain ⟨group, hgroup, hunder⟩ := f.ifAbsent_mem hasks
  rw [dumpedGuards, (readsBack h).outlines, outlines]
  refine List.mem_flatMap.mpr ⟨group, List.mem_flatMap.mpr ⟨f, hf, hgroup⟩, ?_⟩
  refine List.mem_flatMap.mpr ⟨_, hunder, ?_⟩
  simp [DumpItem.outline, groupOutline, Param.outline, Scalar.shown, guardKey?, Outline.text,
    Outline.under]

/-- The requests have the same under the keys of which the dump of the spec says that it reads
them, and of the keys of the guards in it the same are there. -/
structure SameDumped (shown : ShownSpec Input) (root root' : Json) : Prop where
  keys : ∀ key ∈ dumpedKeys shown.dumped, root'.member? key = root.member? key
  guards : ∀ key ∈ dumpedGuards shown.dumped,
    (rootChild root' key).present = (rootChild root key).present
  /-- the one key the dump says nothing of -/
  ledger : (∃ member, .ledgerSelector member ∈ effectiveFields shown.spec.fields) →
    root'.member? "ledger" = root.member? "ledger"

/-- A guard that is for one server only does not show the key it asks for; that key is one
the dump names all the same. -/
def HiddenGuardsShown (spec : TypedSpec Input) : Prop :=
  ∀ field ∈ effectiveFields spec.fields, ∀ key, field.AsksFor key → field.AsksOutright key ∨
    ∃ other ∈ effectiveFields spec.fields, key ∈ other.shownKeys

/-- The fields read what is under the keys the dump names and under `ledger`, and whether the
keys are there that guards ask for. -/
theorem sameRead_of_shown {spec : TypedSpec Input} {root root' : Json}
    (hkeys : ∀ field ∈ effectiveFields spec.fields, ∀ key ∈ field.shownKeys,
      root'.member? key = root.member? key)
    (hguards : ∀ field ∈ effectiveFields spec.fields, ∀ key, field.AsksFor key →
      (rootChild root' key).present = (rootChild root key).present)
    (hledger : (∃ member, .ledgerSelector member ∈ effectiveFields spec.fields) →
      root'.member? "ledger" = root.member? "ledger") : spec.SameRead root root' := by
  intro field hmem
  have hshown := hkeys field hmem
  have hasked := hguards field hmem
  cases field with
  | bound field => exact ⟨hshown, hasked⟩
  | aliased alternateKey field => exact ⟨hshown, hasked⟩
  | ledgerSelector member =>
      exact ⟨List.forall_mem_cons.mpr ⟨hledger ⟨member, hmem⟩, hshown⟩, trivial⟩
  | unbound field => exact ⟨hshown, trivial⟩

/-- Requests that the dump of a spec does not tell apart, the spec does not tell apart. -/
theorem seesOnly_of_sameDumped [Build] [LibXrpl] (hplain : Outline.AllPlain shown.outlines)
    (hhidden : HiddenGuardsShown shown.spec) {root root' : Json}
    (h : shown.SameDumped root root') : shown.spec.SeesOnly root root' := by
  have hkeys : ∀ field ∈ effectiveFields shown.spec.fields, ∀ key ∈ field.shownKeys,
      root'.member? key = root.member? key := by
    intro field hmem key hkey
    refine h.keys key ?_
    rw [(readsBack hplain).keys]
    exact List.mem_flatMap.mpr ⟨field, hmem, hkey⟩
  apply TypedSpec.seesOnly_of_sameRead
  refine sameRead_of_shown hkeys (fun field hmem key hasks => ?_) h.ledger
  rcases hhidden field hmem key hasks with houtright | ⟨other, hother, hkey⟩
  · exact h.guards key (mem_dumpedGuards hplain hmem houtright)
  · exact congrArg Option.isSome (hkeys other hother key hkey)

end ShownSpec

namespace ToggleInput

/-- A field with two keys that is skipped where a third is there. -/
def kQuietField : Field ToggleInput := .aliased "alt" (strictField [ifAbsent "quiet"] rfl)

/-- A guarded field with what its dump shows. -/
def kQuietShown : ShownSpec ToggleInput where
  spec := ⟨[kQuietField], by rfl⟩
  fields := [⟨kQuietField, [.params "ifAbsent" [.param "key" (.text "quiet")]], .named "bool",
    .cons (.ifAbsent _) .nil⟩]
  same := rfl

theorem kQuietShown_allPlain : Outline.AllPlain kQuietShown.outlines := by
  change Outline.AllPlain [
    groupOutline "strict" [groupOutline "ifAbsent" [(Param.param "key" (.text "quiet")).outline],
      bulletOutline "bool"],
    groupOutline "alt" [groupOutline "ifAbsent" [(Param.param "key" (.text "quiet")).outline],
      bulletOutline "bool"]]
  simp [Outline.AllPlain, Outline.Plain, groupOutline, bulletOutline, Param.outline, Scalar.shown,
    Outline.isLine_iff]

theorem kQuietShown_readsBack : kQuietShown.ReadsBack := ShownSpec.readsBack kQuietShown_allPlain

/-- A request that holds the field and its guard's key. -/
def quietRequest : Json := .object [("strict", .bool true), ("quiet", .null)]

/-- The same members, one of them with another value, and one more. -/
def paddedQuietRequest : Json :=
  .object [("id", .int64 7), ("quiet", .bool true), ("strict", .bool true)]

theorem quietRequest_sameDumped : kQuietShown.SameDumped quietRequest paddedQuietRequest where
  keys := by
    rw [kQuietShown_readsBack.keys]
    change ∀ key ∈ ["strict", "alt"], _
    simp only [List.forall_mem_cons]
    exact ⟨rfl, rfl, by simp⟩
  guards := by
    rw [dumpedGuards, kQuietShown_readsBack.outlines]
    change ∀ key ∈ ["quiet", "quiet"], _
    simp only [List.forall_mem_cons]
    exact ⟨rfl, rfl, by simp⟩
  ledger := by
    rintro ⟨member, hmem⟩
    cases List.mem_singleton.mp (mem_of_mem_effectiveFields hmem)

theorem quietRequest_seesOnly :
    @TypedSpec.SeesOnly _ _ .clio hexLib kQuietShown.spec quietRequest paddedQuietRequest := by
  refine @ShownSpec.seesOnly_of_sameDumped _ _ kQuietShown .clio hexLib kQuietShown_allPlain ?_
    _ _ quietRequest_sameDumped
  intro field hmem key hasks
  obtain rfl := List.mem_singleton.mp (mem_of_mem_effectiveFields hmem)
  have hguard : "quiet" = key := by
    simpa [kQuietField, Field.AsksFor, strictField, ifAbsent, anyGuardsKey, Item.guardsKey]
      using hasks
  exact .inl (hguard ▸ List.mem_singleton_self _)

end ToggleInput

/-! ## Guards for one server -/

section Guards

variable {α : Type}

mutual

/-- The keys the guards of an item ask for. -/
def Item.guardKeys : Item α → List String
  | .guard (.ifAbsent guardKey) => [guardKey]
  | .serverConditional _ inners => guardKeysOf inners
  | _ => []

/-- The keys that guards in the list name. -/
def guardKeysOf : List (Item α) → List String
  | [] => []
  | item :: rest => item.guardKeys ++ guardKeysOf rest

end

mutual

theorem Item.mem_guardKeys {key : String} :
    ∀ item : Item α, item.guardsKey key = true → key ∈ item.guardKeys
  | .guard (.ifAbsent guardKey), h => by
      simp only [Item.guardsKey, beq_iff_eq] at h
      simp [Item.guardKeys, h]
  | .guard .never, h => by simp [Item.guardsKey] at h
  | .serverConditional active inners, h => by
      rw [Item.guardsKey] at h
      rw [Item.guardKeys]
      exact mem_guardKeysOf inners h
  | .requirement _, h => by simp [Item.guardsKey] at h
  | .modifier _, h => by simp [Item.guardsKey] at h
  | .deprecated, h => by simp [Item.guardsKey] at h
  | .defaultTo _, h => by simp [Item.guardsKey] at h
  | .withCustomError _ _ _, h => by simp [Item.guardsKey] at h
  | .ifType _ _, h => by simp [Item.guardsKey] at h
  | .section_ _, h => by simp [Item.guardsKey] at h

theorem mem_guardKeysOf {key : String} :
    ∀ items : List (Item α), anyGuardsKey key items = true → key ∈ guardKeysOf items
  | [], h => by simp [anyGuardsKey] at h
  | item :: rest, h => by
      rw [anyGuardsKey, Bool.or_eq_true] at h
      rw [guardKeysOf, List.mem_append]
      exact h.imp item.mem_guardKeys (mem_guardKeysOf rest)

end

namespace Field

/-- The keys that guards of the field name. -/
def guardKeys : Field Input → List String
  | .bound field => guardKeysOf field.items
  | .aliased _ field => guardKeysOf field.items
  | .ledgerSelector _ => []
  | .unbound _ => []

/-- A key the field asks for is one its guards name. -/
theorem mem_guardKeys {field : Field Input} {key : String} (h : field.AsksFor key) :
    key ∈ field.guardKeys := by
  cases field with
  | bound field => exact mem_guardKeysOf field.items h
  | aliased alternateKey field => exact mem_guardKeysOf field.items h
  | ledgerSelector member => cases h
  | unbound field => cases h

/-- The keys a field shows beside its own. -/
def otherKeys : Field Input → List String
  | .aliased alternateKey _ => [alternateKey]
  | .ledgerSelector _ => ["ledger_hash"]
  | _ => []

/-- A field is shown under its own key and its other keys. -/
theorem mem_shownKeys {field : Field Input} {key : String} :
    key ∈ field.shownKeys ↔ key = field.key ∨ key ∈ field.otherKeys := by
  cases field <;> simp [shownKeys, otherKeys, Field.key, or_comm]

end Field

/-- The keys the dump of a spec names. -/
def namedKeys (fields : List (Field Input)) : List String :=
  (effectiveFields fields).flatMap Field.shownKeys

/-- No field shows the key of another beside its own, and guards ask for keys of fields. -/
def documentable (fields : List (Field Input)) : Bool :=
  let keys := fields.map Field.key
  let others := fields.flatMap Field.otherKeys
  decide others.Nodup && others.all (!keys.contains ·) &&
    fields.all fun field => field.guardKeys.all keys.contains

section Documentable

variable {fields : List (Field Input)}

theorem otherKeys_of_documentable (h : documentable fields = true) :
    (fields.flatMap Field.otherKeys).Nodup ∧
      ∀ field ∈ fields, ∀ key ∈ field.otherKeys, key ∉ fields.map Field.key := by
  simp only [documentable, Bool.and_eq_true, decide_eq_true_eq, List.all_eq_true,
    Bool.not_eq_true'] at h
  refine ⟨h.1.1, fun field hmem key hkey hkeys => ?_⟩
  have habsent := h.1.2 key (List.mem_flatMap.mpr ⟨field, hmem, hkey⟩)
  exact Bool.false_ne_true (habsent.symm.trans (List.contains_iff_mem.mpr hkeys))

theorem guardKeys_of_documentable (h : documentable fields = true) {field : Field Input}
    (hmem : field ∈ fields) {key : String} (hkey : key ∈ field.guardKeys) :
    key ∈ namedKeys fields := by
  simp only [documentable, Bool.and_eq_true, List.all_eq_true] at h
  have hfields : key ∈ fields.map Field.key := List.contains_iff_mem.mp (h.2 field hmem key hkey)
  rw [← mem_map_key_lastWins, ← effectiveFields_eq_lastWins] at hfields
  obtain ⟨other, hother, rfl⟩ := List.mem_map.mp hfields
  exact List.mem_flatMap.mpr ⟨other, hother, Field.mem_shownKeys.mpr (.inl rfl)⟩

/-- Each key is named once. -/
theorem nodup_of_documentable (h : documentable fields = true) : (namedKeys fields).Nodup := by
  obtain ⟨hothers, hkeys⟩ := otherKeys_of_documentable h
  have hkey {f g : Field Input} (hf : f ∈ fields) (hg : g ∈ fields) : f.key ∉ g.otherKeys :=
    fun hmem => hkeys g hg _ hmem (List.mem_map_of_mem hf)
  have hapart : (effectiveFields fields).Pairwise fun f g => f.key ≠ g.key := by
    rw [effectiveFields_eq_lastWins]
    exact List.pairwise_map.mp (nodup_map_key_lastWins fields)
  refine List.nodup_flatMap.mpr ⟨fun f hf => ?_, hapart.imp_of_mem ?_⟩
  · have hself := hkey (mem_of_mem_effectiveFields hf) (mem_of_mem_effectiveFields hf)
    cases f <;> simp_all [Field.shownKeys, Field.otherKeys, Field.key]
  · intro f g hf hg hne key hkf hkg
    have hf' := mem_of_mem_effectiveFields hf
    have hg' := mem_of_mem_effectiveFields hg
    rcases Field.mem_shownKeys.mp hkf with rfl | hkf
    · rcases Field.mem_shownKeys.mp hkg with heq | hkg
      · exact hne heq
      · exact hkey hf' hg' hkg
    · rcases Field.mem_shownKeys.mp hkg with rfl | hkg
      · exact hkey hg' hf' hkf
      · have hdisjoint := (List.nodup_flatMap.mp hothers).2
        have hsymm : Std.Symm
            (Function.onFun List.Disjoint (Field.otherKeys : Field Input → List String)) :=
          ⟨fun _ _ hd => List.disjoint_symm hd⟩
        exact hdisjoint.forall hf' hg' (fun heq => hne (congrArg Field.key heq)) hkf hkg

end Documentable

/-- The keys the dump names, and `ledger`, are all such a spec reads a request by. -/
theorem seesOnly_of_documentable [InputAggregate Input] [Build] [LibXrpl] {spec : TypedSpec Input}
    (h : documentable spec.fields = true) {root root' : Json}
    (hsame : ∀ key ∈ "ledger" :: namedKeys spec.fields, root'.member? key = root.member? key) :
    spec.SeesOnly root root' := by
  obtain ⟨hledger, hnamed⟩ := List.forall_mem_cons.mp hsame
  apply TypedSpec.seesOnly_of_sameRead
  refine ShownSpec.sameRead_of_shown (fun field hmem key hkey => ?_)
    (fun field hmem key hasks => ?_) fun _ => hledger
  · exact hnamed key (List.mem_flatMap.mpr ⟨field, hmem, hkey⟩)
  · exact congrArg Option.isSome (hnamed key
      (guardKeys_of_documentable h (mem_of_mem_effectiveFields hmem) (Field.mem_guardKeys hasks)))

end Guards

end RpcSpec.Dsl
