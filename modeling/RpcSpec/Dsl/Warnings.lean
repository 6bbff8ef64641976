import RpcSpec.Foundation.Grouping
import RpcSpec.Dsl.Json
set_option autoImplicit false

/-!
# Warnings as JSON (`rpcspec/backends/BoostJson.hpp`, `rpcspec/Errors.hpp`)

The warnings of a check, rendered as one object for each code: its standard text, and
behind it what the warnings of the code say.  The `std::map` that gathers them is a
`TreeMap`.  `none` stands for an exception.

`toJsonArray_losesNothing` says of every list of warnings that its codes come out once
each, in order, and that every warning is found under its own code.
-/

namespace RpcSpec.Dsl

open RpcSpec.Foundation

/-- The bytes of a text. -/
def utf8 (text : String) : Bytes := text.toUTF8.data.toList

/-! ## Codes and their texts -/

namespace WarningCode

/-- The value of the enumerator. -/
def value : WarningCode → Int
  | .warnUnknown => -1
  | .warnRpcClio => 2001
  | .warnRpcOutdated => 2002
  | .warnRpcRateLimit => 2003
  | .warnRpcDeprecated => 2004

theorem value_injective : Function.Injective value := by
  intro code code' h
  cases code <;> cases code' <;> first | rfl | cases h

/-- Enumerators compare by their values. -/
instance : LinearOrder WarningCode where
  le code code' := code.value ≤ code'.value
  le_refl code := le_refl code.value
  le_trans code code' code'' := le_trans (a := code.value)
  le_antisymm code code' h h' := value_injective (le_antisymm h h')
  le_total code code' := le_total code.value code'.value
  toDecidableLE code code' := inferInstanceAs (Decidable (code.value ≤ code'.value))
  toDecidableEq := inferInstance

theorem lt_iff {code code' : WarningCode} : code < code' ↔ code.value < code'.value := by
  rw [lt_iff_not_ge, ← not_le]
  rfl

end WarningCode

/-- `rpc::WarningInfo`. -/
structure WarningInfo where
  code : WarningCode
  message : String

/-- The warnings with their texts, as the source lists them. -/
def kInfos : List WarningInfo :=
  [⟨.warnUnknown, "Unknown warning"⟩,
    ⟨.warnRpcClio,
      "This is a clio server. clio only serves validated data. If you want to talk to xrpld, " ++
        "include 'ledger_index':'current' in your request"⟩,
    ⟨.warnRpcOutdated, "This server may be out of date"⟩,
    ⟨.warnRpcRateLimit, "You are about to be rate limited"⟩,
    ⟨.warnRpcDeprecated,
      "Some fields from your request are deprecated. Please check the documentation at " ++
        "https://xrpl.org/docs/references/http-websocket-apis/ and update your request."⟩]

/-- `getWarningInfo(code)`. -/
def getWarningInfo (code : WarningCode) : Option WarningInfo :=
  kInfos.find? fun info => info.code == code

/-- `makeWarning(code)`: the members of the object. -/
def makeWarning (code : WarningCode) : Option (List (String × Json)) := do
  let info ← getWarningInfo code
  return [("id", .int64 (Int64.ofInt code.value)), ("message", .string (utf8 info.message))]

/-! ## Rendering -/

/-- `grouped` of `toJsonArray`: the messages under their codes. -/
def groupedMessages (warnings : Warnings) : Std.TreeMap WarningCode (List String) :=
  warnings.foldl (fun grouped warning =>
    grouped.alter warning.code fun messages => some (messages.getD [] ++ [warning.message])) ∅

/-- The messages appended to the `"message"` of an object, each behind a space. -/
def appendExtras (obj : List (String × Json)) (messages : List String) :
    Option (List (String × Json)) :=
  match obj.lookup "message" with
  | some (.string msg) =>
      some (putMember "message"
        (.string (messages.foldl (fun msg extra => msg ++ utf8 " " ++ utf8 extra) msg)) obj)
  | _ => none

/-- `toJsonArray(warnings)`. -/
def toJsonArray (warnings : Warnings) : Option (List Json) :=
  (groupedMessages warnings).toList.mapM fun (code, messages) => do
    let obj ← makeWarning code
    return .object (← appendExtras obj messages)

/-! ## What is rendered -/

theorem getWarningInfo_isSome (code : WarningCode) : (getWarningInfo code).isSome = true := by
  cases code <;> rfl

/-- The text every warning of the code begins with. -/
def WarningCode.standardText (code : WarningCode) : String :=
  ((getWarningInfo code).get (getWarningInfo_isSome code)).message

/-- The messages of a code, behind one another. -/
def extrasText (messages : List String) : Bytes :=
  messages.flatMap fun message => utf8 " " ++ utf8 message

/-- The object for the warnings of one code. -/
def renderedGroup (group : WarningCode × List String) : Json :=
  .object [("id", .int64 (Int64.ofInt group.1.value)),
    ("message", .string (utf8 group.1.standardText ++ extrasText group.2))]

/-- The messages of the warnings, by codes. -/
abbrev messageGroups (warnings : Warnings) : List (WarningCode × List String) :=
  groups Warning.code Warning.message warnings

theorem makeWarning_eq (code : WarningCode) : makeWarning code =
    some [("id", .int64 (Int64.ofInt code.value)),
      ("message", .string (utf8 code.standardText))] := by
  rw [makeWarning, ← Option.some_get (getWarningInfo_isSome code)]
  rfl

theorem foldl_append_extras (messages : List String) (msg : Bytes) :
    messages.foldl (fun msg extra => msg ++ utf8 " " ++ utf8 extra) msg =
      msg ++ extrasText messages := by
  induction messages generalizing msg with
  | nil => exact (List.append_nil msg).symm
  | cons extra rest ih =>
      have hcons : extrasText (extra :: rest) = (utf8 " " ++ utf8 extra) ++ extrasText rest :=
        List.flatMap_cons
      rw [List.foldl_cons, ih, hcons, List.append_assoc, List.append_assoc, List.append_assoc]

theorem appendExtras_eq (id : Json) (msg : Bytes) (messages : List String) :
    appendExtras [("id", id), ("message", .string msg)] messages =
      some [("id", id), ("message", .string (msg ++ extrasText messages))] := by
  rw [← foldl_append_extras]
  rfl

/-- The rendering is that of the groups. -/
theorem toJsonArray_eq (warnings : Warnings) :
    toJsonArray warnings = some ((messageGroups warnings).map renderedGroup) := by
  have hgroups : (groupedMessages warnings).toList = messageGroups warnings :=
    toList_foldl_putInGroup warnings
  rw [toJsonArray, hgroups]
  have hgroup : (fun (group : WarningCode × List String) => do
      let obj ← makeWarning group.1
      return Json.object (← appendExtras obj group.2)) =
        fun group => pure (renderedGroup group) := by
    funext group
    rw [makeWarning_eq, Option.bind_eq_bind, Option.bind_some, appendExtras_eq]
    rfl
  exact (congrArg (fun f => (messageGroups warnings).mapM f) hgroup).trans List.mapM_pure

/-! ## Nothing is lost -/

/-- One object for each code that occurs, by ascending codes, which holds the messages of
all the warnings of the code in order. -/
structure Rendered (warnings : Warnings) (codes : List WarningCode) (out : List Json) :
    Prop where
  ascending : codes.Pairwise fun code code' => code.value < code'.value
  complete : ∀ code, code ∈ codes ↔ ∃ warning ∈ warnings, warning.code = code
  objects : out = codes.map fun code => renderedGroup
    (code, (warnings.filter fun warning => warning.code = code).map Warning.message)

/-- The lists are made of the same warnings, those of each code in one order. -/
def SameByCode (warnings warnings' : Warnings) : Prop :=
  ∀ code, (warnings.filter fun warning => warning.code = code) =
    warnings'.filter fun warning => warning.code = code

/-- Every list of warnings is rendered, and what it is rendered to depends on the warnings
of each code alone, and is put together from the renderings of its parts. -/
structure LosesNothing : Prop where
  renders : ∀ warnings, ∃ out codes, toJsonArray warnings = some out ∧ Rendered warnings codes out
  reorders : ∀ warnings warnings', SameByCode warnings warnings' →
    toJsonArray warnings = toJsonArray warnings'
  concatenates : ∀ left right, ∃ groups groups',
    toJsonArray left = some (groups.map renderedGroup) ∧
      toJsonArray right = some (groups'.map renderedGroup) ∧
      toJsonArray (left ++ right) = some ((mergeGroups groups groups').map renderedGroup)

theorem messageGroups_congr {warnings warnings' : Warnings} (h : SameByCode warnings warnings') :
    messageGroups warnings = messageGroups warnings' :=
  groups_congr fun code => congrArg (List.map Warning.message) (h code)

theorem rendered_messageGroups (warnings : Warnings) :
    Rendered warnings (keysOf Warning.code warnings).sort
      ((messageGroups warnings).map renderedGroup) where
  ascending := (Finset.sortedLT_sort _).pairwise.imp WarningCode.lt_iff.mp
  complete := by simp
  objects := by
    rw [messageGroups, groups, List.map_map]
    rfl

theorem toJsonArray_losesNothing : LosesNothing where
  renders := by
    intro warnings
    exact ⟨_, _, toJsonArray_eq warnings, rendered_messageGroups warnings⟩
  reorders := by
    intro warnings warnings' h
    rw [toJsonArray_eq, toJsonArray_eq, messageGroups_congr h]
  concatenates := by
    intro left right
    refine ⟨_, _, toJsonArray_eq left, toJsonArray_eq right, ?_⟩
    rw [toJsonArray_eq, messageGroups, groups_append]

end RpcSpec.Dsl
