import RpcSpec.Dsl.Ledger
set_option autoImplicit false

/-!
# Typed specs (`rpcspec/Typed.hpp`, `rpcspec/RpcSpec.hpp`)

A spec is a list of fields, most of them bound to a member of an `Input`.  Of the
fields that share a key only the last runs, in the place of the first.  A value of
`BoundField` or `TypedSpec` carries the checks its constructor makes at compile
time.  Parsing runs over the request document, which it may rewrite.

`TypedSpec.parse` and `TypedSpec.check` are the two walks over a request; `extend` builds
a spec from a base and overrides, with the checks made again.
-/

namespace RpcSpec.Dsl

open RpcSpec.Foundation XrpldError

/-! ## Bound fields -/

/-- `Member InputT::*`: a member of the `Input`, and what assigning to it does. -/
structure Member (Input Value : Type) where
  name : String
  assign : Input → Value → Input

/-- No guard among the items of the member asks for its key. -/
abbrev Member.Unguarded {Input Value : Type} (_member : Member Input Value) (key : String)
    (items : List (Item Value)) : Prop :=
  anyGuardsKey key items = false

/-- `BoundField`.  Its constructor refuses a guard on the field's own key. -/
structure BoundField (Input : Type) where
  {Value : Type}
  key : String
  member : Member Input Value
  items : List (Item Value)
  conv : Converter Value
  unguarded : anyGuardsKey key items = false

variable {Input : Type}

namespace BoundField

/-- `applyIfDefault` on every item. -/
def applyDefaults (field : BoundField Input) (out : Input) : Input :=
  field.items.foldl (fun out item =>
    match item with
    | .defaultTo value => field.member.assign out value
    | _ => out) out

/-- Work on `root.child(key)` in place. -/
def onRootChild {α : Type} (key : String) (x : EStateM Failure FieldView α) :
    EStateM Failure Json α :=
  zoom (rootChild · key) (fun root child => root.putChild child.value key) x

/-- The child is written back, whatever the items end in. -/
theorem onRootChild_get {α : Type} (items : List (Item α)) (key : String) (root : Json) :
    onRootChild key (do runProcessors items; get) root =
      match runProcessors items (rootChild root key) with
      | .ok _ v => .ok v (root.putChild v.value key)
      | .error failure v => .error failure (root.putChild v.value key) := by
  change zoom _ _ (EStateM.bind (runProcessors items) fun _ => get) root = _
  unfold zoom EStateM.bind
  cases runProcessors items (rootChild root key) <;> rfl

/-- `parseInto`, for the field looked up under a key that need not be its own. -/
def parseAt (field : BoundField Input) (key : String) (out : Input) :
    EStateM Failure Json Input := do
  let root ← get
  if skipsField field.items root then pure out
  else
    let fieldView ← onRootChild key do
      runProcessors field.items
      get
    if !fieldView.present then pure (field.applyDefaults out)
    else
      let value ← (field.conv.parse fieldView : Parsed _)
      pure (field.member.assign out value)

/-- Under its own key. -/
def parseInto (field : BoundField Input) (out : Input) : EStateM Failure Json Input :=
  field.parseAt field.key out

/-- A skipped field has no warnings. -/
def checkAt [Build] (field : BoundField Input) (key : String) (root : Json) : Warnings :=
  if skipsField field.items root then [] else runChecks field.items (rootChild root key)

end BoundField

/-! ## Aliases -/

/-- `AliasedField::parseInto`. -/
def parseAliased (alternateKey : String) (field : BoundField Input) (out : Input) :
    EStateM Failure Json Input := do
  let root ← get
  if (rootChild root alternateKey).present then
    if (rootChild root field.key).present then
      throw (unexpected rpcInvalidParams "Too many fields provided.")
    else field.parseAt alternateKey out
  else field.parseInto out

/-- `AliasedField::check`. -/
def checkAliased [Build] (alternateKey : String) (field : BoundField Input) (root : Json) :
    Warnings :=
  field.checkAt (if (rootChild root alternateKey).present then alternateKey else field.key) root

/-! ## The fields of a spec -/

/-- What may stand in a spec. -/
inductive Field (Input : Type) where
  | bound (field : BoundField Input)
  | aliased (alternateKey : String) (field : BoundField Input)
  | ledgerSelector (member : Member Input LedgerSpecifier)
  | unbound (field : FieldSpec Unit)

namespace Field

/-- The key the field goes by, among the others too. -/
def key : Field Input → String
  | .bound field => field.key
  | .aliased _ field => field.key
  | .ledgerSelector _ => "ledger_index"
  | .unbound field => field.key

/-- The member the field is bound to. -/
def memberName? : Field Input → Option String
  | .bound field => some field.member.name
  | .aliased _ field => some field.member.name
  | .ledgerSelector member => some member.name
  | .unbound _ => none

variable [Build] [LibXrpl]

/-- `parseOne`. -/
def parseOne : Field Input → Input → EStateM Failure Json Input
  | .bound field, out => field.parseInto out
  | .aliased alternateKey field, out => parseAliased alternateKey field out
  | .ledgerSelector member, out => do
      let root ← get
      match ← (selectLedger root : Parsed _) with
      | some ledger => pure (member.assign out ledger)
      | none => pure out
  | .unbound field, out => do
      field.process
      pure out

/-- The warnings of one field. -/
def check : Field Input → Json → Warnings
  | .bound field, root => field.checkAt field.key root
  | .aliased alternateKey field, root => checkAliased alternateKey field root
  | .ledgerSelector _, _ => []
  | .unbound field, root => field.check root

end Field

/-! ## Last wins -/

/-- `OverridePlan`. -/
structure OverridePlan (n : Nat) where
  shouldRun : Fin n → Bool
  effectiveIdx : Fin n → Fin n

/-- `buildOverridePlan`.  Of the entries that do not run the source leaves the index
at 0; it is never read. -/
def buildOverridePlan (keys : List String) : OverridePlan keys.length where
  shouldRun i := !(keys.take i).contains keys[i]
  effectiveIdx i := (List.finRange keys.length).foldl
    (fun last j => if i < j && keys[j] == keys[i] then j else last) i

/-- The fields `forEachEffectiveField` dispatches, in order. -/
def effectiveFields (fields : List (Field Input)) : List (Field Input) :=
  let keys := fields.map Field.key
  let plan := buildOverridePlan keys
  (List.finRange keys.length).filterMap fun i =>
    if plan.shouldRun i then fields[plan.effectiveIdx i]? else none

/-- What is dispatched stands in the spec. -/
theorem mem_of_mem_effectiveFields {fields : List (Field Input)} {field : Field Input}
    (h : field ∈ effectiveFields fields) : field ∈ fields := by
  obtain ⟨i, -, hi⟩ := List.mem_filterMap.mp h
  split at hi
  · exact List.mem_of_getElem? hi
  · cases hi

/-! ## Specs -/

/-- What the source takes from the `Input` aggregate: `InputT{}` and the number of
its members. -/
class InputAggregate (Input : Type) where
  init : Input
  memberCount : Nat

/-- `distinctBoundMemberCount`. -/
def distinctBoundMemberCount (fields : List (Field Input)) : Nat :=
  let names := fields.map Field.memberName?
  (List.range names.length).countP fun i =>
    (names.getD i none).isSome && !(names.take i).contains (names.getD i none)

/-- `TypedSpec`.  Its constructor refuses a list of fields that leaves a member of
the `Input` unbound. -/
structure TypedSpec (Input : Type) [InputAggregate Input] where
  fields : List (Field Input)
  complete : distinctBoundMemberCount fields = InputAggregate.memberCount Input

namespace TypedSpec

variable [InputAggregate Input] [Build] [LibXrpl]

/-- `parse`: the fields in order, up to the first that fails. -/
def parse (spec : TypedSpec Input) : EStateM Failure Json Input :=
  (effectiveFields spec.fields).foldlM (fun out field => field.parseOne out)
    InputAggregate.init

/-- The warnings of the request, field by field. -/
def check (spec : TypedSpec Input) (root : Json) : Warnings :=
  (effectiveFields spec.fields).flatMap fun field => field.check root

end TypedSpec

/-- `extend`. -/
def extend [InputAggregate Input] (base : TypedSpec Input) (extra : List (Field Input))
    (complete : distinctBoundMemberCount (base.fields ++ extra) =
      InputAggregate.memberCount Input) : TypedSpec Input :=
  ⟨base.fields ++ extra, complete⟩

/-! ## The builders under their names -/

/-- `field(key, &Input::member, items…, conv)`. -/
def field {Value : Type} (key : String) (member : Member Input Value)
    (items : List (Item Value)) (conv : Converter Value)
    (unguarded : member.Unguarded key items := by exact of_decide_eq_true rfl) : Field Input :=
  .bound { key, member, items, conv, unguarded }

/-- `field(key, items…)`. -/
def unboundField (key : String) (items : List (Item Unit)) : Field Input :=
  .unbound (.mk key items)

/-- `alias(alternateKey, field(…))`. -/
def alias_ {Value : Type} (alternateKey key : String) (member : Member Input Value)
    (items : List (Item Value)) (conv : Converter Value)
    (unguarded : member.Unguarded key items := by exact of_decide_eq_true rfl) : Field Input :=
  .aliased alternateKey { key, member, items, conv, unguarded }

/-- The field for the ledger, which reads three keys. -/
def ledgerSelector (member : Member Input LedgerSpecifier) : Field Input :=
  .ledgerSelector member

end RpcSpec.Dsl
