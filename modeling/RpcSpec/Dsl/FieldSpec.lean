import RpcSpec.Dsl.XrplParse
set_option autoImplicit false

/-!
# Field items

`FieldSpec.hpp` with `Section.hpp`, `IfType.hpp`, `WithCustomError.hpp` and
`ServerConditional.hpp`.

A field is a key and the items that apply to its value: requirements that may
refuse it, modifiers that may also rewrite it, checks that may warn, guards that
may skip the field, and defaults.  In the source an item is any type with the
right member functions; here it is a leaf that carries the function, or one of the
combinators.  Which of the roles an item plays is what the source's concepts decide
on, so it is computed first.

`runProcessors` is the run of a list of items over a view, `runChecks` its warnings and
`skipsField` the verdict of its guards; the rest of the development speaks about fields
through these three.
-/

namespace RpcSpec.Dsl

open RpcSpec.Foundation

/-- `IfAbsent` and `Never`. -/
inductive Guard where
  | ifAbsent (guardKey : String)
  | never
  deriving DecidableEq, Repr

mutual

/-- An item of a field whose member takes values of type `α`. -/
inductive Item (α : Type) where
  | requirement (verify : FieldView → MaybeError)
  | modifier (modify : EStateM Failure FieldView Unit)
  | deprecated
  | guard (guard : Guard)
  | defaultTo (value : α)
  | withCustomError (wrapped : Item α) (code : CombinedError) (message : String)
  | ifType (type : JsonType) (subItems : List (Item α))
  | section_ (subFields : List (FieldSpec α))
  | serverConditional (active : Bool) (inners : List (Item α))

/-- `FieldSpec`: a key and its items, bound to no member. -/
inductive FieldSpec (α : Type) where
  | mk (key : String) (items : List (Item α))

end

variable {α : Type}

namespace FieldSpec

/-- The key the field is looked up under. -/
def key : FieldSpec α → String
  | .mk key _ => key

/-- What is run on the field, in order. -/
def items : FieldSpec α → List (Item α)
  | .mk _ items => items

end FieldSpec

/-! ## Roles -/

mutual

/-- `SomeRequirement`. -/
def Item.isRequirement : Item α → Bool
  | .requirement _ => true
  | .withCustomError wrapped _ _ => wrapped.isRequirement
  | .serverConditional _ inners => anyRequirement inners
  | _ => false

/-- A group is a requirement when one of its items is. -/
def anyRequirement : List (Item α) → Bool
  | [] => false
  | item :: rest => item.isRequirement || anyRequirement rest

end

mutual

/-- `SomeModifier`. -/
def Item.isModifier : Item α → Bool
  | .modifier _ => true
  | .ifType _ _ => true
  | .section_ _ => true
  | .withCustomError wrapped _ _ => wrapped.isModifier
  | .serverConditional _ inners => anyModifier inners
  | _ => false

/-- And a modifier when one of them is. -/
def anyModifier : List (Item α) → Bool
  | [] => false
  | item :: rest => item.isModifier || anyModifier rest

end

/-! ## Processing -/

/-- The status `WithCustomError` puts in place of the wrapped item's. -/
def customFailure (code : CombinedError) (message : String) : Failure → Failure
  | .error _ => unexpected code message
  | .fault why => .fault why

/-- An error stays an error, with another code and text. -/
theorem customFailure_error (code : CombinedError) (message : String) (status : Status) :
    ∃ status', customFailure code message (.error status) = .error status' := ⟨_, rfl⟩

mutual

/-- `item.verify(fieldView)`, for an item that is a requirement. -/
def Item.verify : Item α → FieldView → MaybeError
  | .requirement verify, fieldView => verify fieldView
  | .withCustomError wrapped code message, fieldView =>
      (wrapped.verify fieldView).mapError (customFailure code message)
  | .serverConditional active inners, fieldView =>
      if active then verifyAll inners fieldView else pure ()
  | _, _ => pure ()

/-- The requirements among the items, up to the first that refuses. -/
def verifyAll : List (Item α) → FieldView → MaybeError
  | [], _ => pure ()
  | item :: rest, fieldView => do
      if item.isRequirement then item.verify fieldView
      verifyAll rest fieldView

end

mutual

/-- `item.modify(fieldView)`, for an item that is a modifier. -/
def Item.modify : Item α → EStateM Failure FieldView Unit
  | .modifier modify => modify
  | .withCustomError wrapped code message =>
      mapFailure (customFailure code message) wrapped.modify
  | .ifType type subItems => do
      let fieldView ← get
      if !fieldView.present || !fieldView.is type then pure ()
      else runProcessors subItems
  | .section_ subFields => do
      let fieldView ← get
      if !fieldView.present then pure ()
      else if !fieldView.isObject then throw (unexpected XrpldError.rpcInvalidParams)
      else processNested subFields
  | .serverConditional active inners => if active then modifyAll inners else pure ()
  | _ => pure ()

/-- The modifiers among the items, up to the first that fails. -/
def modifyAll : List (Item α) → EStateM Failure FieldView Unit
  | [] => pure ()
  | item :: rest => do
      if item.isModifier then item.modify
      modifyAll rest

/-- The items in order, up to the first that fails.  A requirement is never also
run as a modifier. -/
def runProcessors : List (Item α) → EStateM Failure FieldView Unit
  | [] => pure ()
  | item :: rest => do
      if item.isRequirement then
        let fieldView ← get
        monadLift (item.verify fieldView)
      else if item.isModifier then
        item.modify
      runProcessors rest

/-- The fields of a section, each on its child of the parent view. -/
def processNested : List (FieldSpec α) → EStateM Failure FieldView Unit
  | [] => pure ()
  | .mk key items :: rest => do
      FieldView.onChild key (runProcessors items)
      processNested rest

end

/-- `callIfProcessor`. -/
def callIfProcessor (item : Item α) : EStateM Failure FieldView Unit := do
  if item.isRequirement then
    let fieldView ← get
    monadLift (item.verify fieldView)
  else if item.isModifier then
    item.modify

/-- A requirement looks at the view as it stands. -/
theorem callIfProcessor_of_requirement {item : Item α} (h : item.isRequirement = true) :
    callIfProcessor item = (do let fieldView ← get; monadLift (item.verify fieldView)) := by
  simp [callIfProcessor, h]

/-- A modifier works on it in place. -/
theorem callIfProcessor_of_modifier {item : Item α} (h : item.isRequirement = false)
    (h' : item.isModifier = true) : callIfProcessor item = item.modify := by
  simp [callIfProcessor, h, h']

/-- Anything else has no part in processing. -/
theorem callIfProcessor_of_neither {item : Item α} (h : item.isRequirement = false)
    (h' : item.isModifier = false) : callIfProcessor item = pure () := by
  simp [callIfProcessor, h, h']

theorem runProcessors_nil : runProcessors ([] : List (Item α)) = pure () := by
  rw [runProcessors]

/-- Each item sees what those before it have left. -/
theorem runProcessors_cons (item : Item α) (rest : List (Item α)) :
    runProcessors (item :: rest) = (do callIfProcessor item; runProcessors rest) := by
  rw [runProcessors, callIfProcessor]
  cases item.isRequirement <;> cases item.isModifier <;> simp

/-- A requirement on its own. -/
theorem runProcessors_requirement (verify : FieldView → MaybeError) (v : FieldView) :
    runProcessors [(.requirement verify : Item α)] v =
      match verify v with
      | .ok _ => .ok () v
      | .error failure => .error failure v := by
  rw [runProcessors_cons, callIfProcessor_of_requirement (by rw [Item.isRequirement]),
    runProcessors_nil]
  change EStateM.bind (monadLift ((Item.requirement verify : Item α).verify v)) _ v = _
  rw [Item.verify, EStateM.bind]
  cases verify v <;> rfl

/-! ## Checks and guards -/

/-- The text of a deprecation warning. -/
def deprecatedMessage [Build] (key : String) : String :=
  if kIsClioBuild then "Field '" ++ key ++ "' is deprecated."
  else "Field `" ++ key ++ "` is deprecated."

mutual

/-- `item.check(fieldView)`, for an item that is a check. -/
def Item.check [Build] : Item α → FieldView → Option Warning
  | .deprecated, fieldView =>
      if fieldView.present then
        some ⟨.warnRpcDeprecated, fieldView.key, deprecatedMessage fieldView.key⟩
      else none
  | .serverConditional active inners, fieldView =>
      if active then firstCheck inners fieldView else none
  | _, _ => none

/-- The first warning of the checks among the items. -/
def firstCheck [Build] : List (Item α) → FieldView → Option Warning
  | [], _ => none
  | item :: rest, fieldView => (item.check fieldView).or (firstCheck rest fieldView)

end

/-- The warnings of the items that are checks. -/
def runChecks [Build] (items : List (Item α)) (fieldView : FieldView) : Warnings :=
  items.filterMap (·.check fieldView)

/-- `root.child(key)`. -/
def rootChild (root : Json) (key : String) : FieldView := ⟨key, root.member? key⟩

/-- Whether the guard keeps the field from being read. -/
def Guard.skips (root : Json) : Guard → Bool
  | .ifAbsent guardKey => (rootChild root guardKey).present
  | .never => true

mutual

/-- `item.skips(root)`, for an item that is a guard. -/
def Item.skips (root : Json) : Item α → Bool
  | .guard guard => guard.skips root
  | .serverConditional active inners => active && skipsAny root inners
  | _ => false

/-- A group guards when one of its items does. -/
def skipsAny (root : Json) : List (Item α) → Bool
  | [] => false
  | item :: rest => item.skips root || skipsAny root rest

end

/-- One guard is enough to skip a field. -/
def skipsField (items : List (Item α)) (root : Json) : Bool := items.any (·.skips root)

mutual

/-- `detail::guardsKey`. -/
def Item.guardsKey (key : String) : Item α → Bool
  | .guard (.ifAbsent guardKey) => guardKey == key
  | .serverConditional _ inners => anyGuardsKey key inners
  | _ => false

/-- Whether a guard somewhere among the items asks for the key. -/
def anyGuardsKey (key : String) : List (Item α) → Bool
  | [] => false
  | item :: rest => item.guardsKey key || anyGuardsKey key rest

end

/-! ## Fields bound to no member -/

namespace FieldSpec

/-- Run the items on the field in place. -/
def process (field : FieldSpec α) : EStateM Failure Json Unit :=
  zoom (rootChild · field.key) (fun root child => root.putChild child.value field.key)
    (runProcessors field.items)

/-- The warnings of the field; nothing is run. -/
def check [Build] (field : FieldSpec α) (root : Json) : Warnings :=
  runChecks field.items (rootChild root field.key)

end FieldSpec

/-! ## The combinators under their names -/

/-- Another code and text for whatever the item reports. -/
def withCustomError (wrapped : Item α) (code : CombinedError) (message : String := "") :
    Item α := .withCustomError wrapped code message

/-- The items, for values of one type only. -/
def ifType (type : JsonType) (items : List (Item α)) : Item α := .ifType type items

/-- `section(field(…), …)`. -/
def section_ (subFields : List (FieldSpec α)) : Item α := .section_ subFields

/-- The items, for the one server only. -/
def ifServerClio [Build] (inners : List (Item α)) : Item α :=
  .serverConditional kIsClioBuild inners

/-- The items, for the other server only. -/
def ifServerXrpld [Build] (inners : List (Item α)) : Item α :=
  .serverConditional kIsXrpldBuild inners

/-- The field is read only where that key is not there. -/
def ifAbsent (guardKey : String) : Item α := .guard (.ifAbsent guardKey)

/-- The field is never read. -/
def never : Item α := .guard .never

/-- A warning, for a field that is there. -/
def deprecated : Item α := .deprecated

/-- What stands for a field that is not there. -/
def defaultTo (value : α) : Item α := .defaultTo value

end RpcSpec.Dsl
