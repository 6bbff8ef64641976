import RpcSpec.Dsl.Truth
import RpcSpec.Handlers.Accounts
import RpcSpec.Handlers.Balances
import RpcSpec.Handlers.History
import RpcSpec.Handlers.Ledgers
set_option autoImplicit false

/-!
# Flags read leniently

The flags that the first version of the API coerces to a boolean follow the value given for
them, unless that is an integer past `int64_t`.

`coercedByValue_iff` says so of each of the flags, over all values, in terms of the
integer that a value stands for.
-/

namespace RpcSpec.Handlers

open RpcSpec.Dsl RpcSpec.Foundation XrpldError

/-- A flag of a spec. -/
structure LenientFlag where
  handler : String
  {Input : Type}
  [aggregate : InputAggregate Input]
  spec : TypedSpec Input
  key : String
  read : Input → JsonBool
  /-- The items ask for a boolean, so that the converter never comes to see anything else. -/
  declaredBool : Bool

attribute [instance] LenientFlag.aggregate

section

variable [Build] [LibXrpl]

/-- The flags of the first version that go through `jsonBool`.  Clio reads the flag of
`account_lines` strictly. -/
def lenientFlags : List LenientFlag :=
  [⟨"account_tx", AccountTx.kInputSpecV1, "binary", (·.binary), false⟩,
  ⟨"account_tx", AccountTx.kInputSpecV1, "forward", (·.forward), false⟩,
  ⟨"account_info", AccountInfo.kInputSpecV1, "signer_lists", (·.signerLists), false⟩,
  ⟨"account_info", AccountInfo.kInputSpecV1, "queue", (·.queue), false⟩,
  ⟨"ledger", Ledger.kInputSpecV1, "full", (·.full), true⟩,
  ⟨"ledger", Ledger.kInputSpecV1, "accounts", (·.accounts), true⟩,
  ⟨"ledger", Ledger.kInputSpecV1, "owner_funds", (·.ownerFunds), true⟩,
  ⟨"ledger", Ledger.kInputSpecV1, "queue", (·.queue), true⟩,
  ⟨"ledger", Ledger.kInputSpecV1, "transactions", (·.transactions), true⟩,
  ⟨"ledger", Ledger.kInputSpecV1, "expand", (·.expand), true⟩,
  ⟨"ledger", Ledger.kInputSpecV1, "binary", (·.binary), true⟩,
  ⟨"ledger", Ledger.kInputSpecV1, "diff", (·.diff), kIsClioBuild⟩,
  ⟨"noripple_check", NorippleCheck.kInputSpecV1, "transactions", (·.transactions), false⟩,
  ⟨"tx", Tx.kInputSpecV1, "binary", (·.binary), false⟩] ++
  if kIsXrpldBuild then
    [⟨"account_lines", AccountLines.kInputSpecV1, "ignore_default", (·.ignoreDefault), false⟩]
  else []

/-- A value under the key of the flag makes the flag `b`. -/
structure LenientFlag.Coerces (flag : LenientFlag) (json : Json) (b : Bool) : Prop where
  /-- The field takes the value, unless it is declared to take booleans only. -/
  field : flag.declaredBool = false → ∀ f ∈ effectiveFields flag.spec.fields, f.key = flag.key →
    ∀ root, root.member? flag.key = some json →
      ∀ out, ∃ input, f.parseOne out root = .ok input root ∧ flag.read input = b
  /-- In a request that is accepted the flag is `b`. -/
  run : ∀ root, root.member? flag.key = some json →
    ∀ input root', flag.spec.parse root = .ok input root' → flag.read input = b

section Field

variable {Input : Type} [InputAggregate Input] {spec : TypedSpec Input} {key handler : String}
  {member : Member Input JsonBool} {items : List (Item JsonBool)} {conv : Converter JsonBool}
  {unguarded : member.Unguarded key items} {read : Input → JsonBool} {declaredBool : Bool}
  {json : Json} {b : Bool}

/-- A flag with a field of its own whose converter reads the value as `b`. -/
theorem coerces_of_field (hkeys : (spec.fields.map Field.key).Nodup)
    (hindependent : independent spec.fields = true)
    (hmem : Dsl.field key member items conv unguarded ∈ spec.fields)
    (hothers : ∀ g ∈ spec.fields, g.key = key ∨ g.Keeps read)
    (hskips : ∀ root, skipsField items root = false) (hpaths : itemsPaths items = [])
    (hread : ∀ out value, read (member.assign out value) = value)
    (hpasses : declaredBool = false → ∀ v, runProcessors items v = .ok () v)
    (hconv : conv.parse ⟨key, some json⟩ = .ok b) :
    LenientFlag.Coerces ⟨handler, spec, key, read, declaredBool⟩ json b := by
  constructor
  · intro hdeclared f hf hkey root hjson out
    rw [effectiveFields_of_nodup hkeys] at hf
    obtain rfl := List.inj_on_of_nodup_map hkeys hf hmem hkey
    exact ⟨_, field_parseOne_of_passes (hskips root) hjson (hpasses hdeclared _) hconv out,
      hread out b⟩
  · intro root hjson input root' hrun
    refine (TypedSpec.SetBy.of_nodup hkeys hindependent hmem hothers).member_eq ?_ hrun
    intro update hupdate out
    obtain ⟨value, hvalue, rfl⟩ := field_outcome_of_present (hskips root) hpaths hjson hupdate
    obtain rfl := Except.ok.inj (hconv.symm.trans hvalue)
    exact hread out b

theorem coerces_of_plain (hkeys : (spec.fields.map Field.key).Nodup)
    (hindependent : independent spec.fields = true)
    (hmem : Dsl.field key member [] jsonBool ∈ spec.fields)
    (hothers : ∀ g ∈ spec.fields, g.key = key ∨ g.Keeps read)
    (hread : ∀ out value, read (member.assign out value) = value)
    (hconv : jsonBool.parse ⟨key, some json⟩ = .ok b) :
    LenientFlag.Coerces ⟨handler, spec, key, read, declaredBool⟩ json b := by
  refine coerces_of_field hkeys hindependent hmem hothers (fun _ => rfl) rfl hread
    (fun _ v => ?_) hconv
  rw [runProcessors_nil]
  rfl

/-- A flag declared to be a boolean, which Clio may check further. -/
theorem coerces_of_declared {inners : List (Item JsonBool)}
    {unguarded : member.Unguarded key [type [.bool], ifServerClio inners]}
    (hkeys : (spec.fields.map Field.key).Nodup) (hindependent : independent spec.fields = true)
    (hmem : Dsl.field key member [type [.bool], ifServerClio inners] jsonBool unguarded ∈
      spec.fields)
    (hothers : ∀ g ∈ spec.fields, g.key = key ∨ g.Keeps read)
    (hskips : ∀ root, skipsAny root inners = false) (hpaths : itemsPaths inners = [])
    (hread : ∀ out value, read (member.assign out value) = value)
    (hconv : jsonBool.parse ⟨key, some json⟩ = .ok b) :
    LenientFlag.Coerces ⟨handler, spec, key, read, true⟩ json b := by
  refine coerces_of_field hkeys hindependent hmem hothers (fun root => ?_) ?_ hread nofun hconv
  · simp [skipsField, type, ifServerClio, Item.skips, hskips]
  · simp [itemsPaths, type, ifServerClio, Item.modifierPaths, hpaths]

end Field

/-! ## Each flag -/

section Flags

variable {json : Json} {b : Bool}

omit [LibXrpl] in
/-- What only Clio asks is not asked on xrpld. -/
theorem runProcessors_ifServerClio_xrpld (hxrpld : kIsClioBuild = false)
    (inners : List (Item JsonBool)) (v : FieldView) :
    runProcessors [ifServerClio inners] v = .ok () v := by
  rw [runProcessors_cons, runProcessors_nil, ifServerClio, hxrpld, callIfProcessor_inactive]
  rfl

omit [LibXrpl] in
/-- On xrpld this converter coerces like the others. -/
theorem accountLines_asBool_xrpld (hxrpld : kIsXrpldBuild = true) {key : String}
    (h : jsonBool.parse ⟨key, some json⟩ = .ok b) :
    AccountLines.asBool.parse ⟨key, some json⟩ = .ok b := by
  simp only [AccountLines.asBool, hxrpld, if_true, h]
  rfl

/-- Flag by flag, away from the numbers past `2 ^ 63 - 1`. -/
theorem lenientFlags_coerce (hb : json.truth? = some b) (hpast : json.pastInt64 = false) :
    ∀ flag ∈ lenientFlags, flag.Coerces json b := by
  have hconv {key : String} : jsonBool.parse ⟨key, some json⟩ = .ok b :=
    (jsonBool_follows_iff hb).mpr hpast
  have hkeysTx : (AccountTx.kInputSpecV1.fields.map Field.key).Nodup := of_decide_eq_true rfl
  have hkeysInfo : (AccountInfo.kInputSpecV1.fields.map Field.key).Nodup := of_decide_eq_true rfl
  have hkeysLedger : (Ledger.kInputSpecV1.fields.map Field.key).Nodup := of_decide_eq_true rfl
  simp only [lenientFlags, List.forall_mem_append, List.forall_mem_cons]
  refine ⟨⟨
    coerces_of_plain hkeysTx rfl (List.mem_of_getElem? (i := 7) rfl) ?_ (fun _ _ => rfl) hconv,
    coerces_of_plain hkeysTx rfl (List.mem_of_getElem? (i := 8) rfl) ?_ (fun _ _ => rfl) hconv,
    coerces_of_plain hkeysInfo rfl (List.mem_of_getElem? (i := 3) rfl) ?_ (fun _ _ => rfl) hconv,
    coerces_of_plain hkeysInfo rfl (List.mem_of_getElem? (i := 4) rfl) ?_ (fun _ _ => rfl) hconv,
    coerces_of_declared hkeysLedger rfl (List.mem_of_getElem? (i := 1) rfl) ?_ (fun _ => rfl) rfl
      (fun _ _ => rfl) hconv,
    coerces_of_declared hkeysLedger rfl (List.mem_of_getElem? (i := 2) rfl) ?_ (fun _ => rfl) rfl
      (fun _ _ => rfl) hconv,
    coerces_of_field hkeysLedger rfl (List.mem_of_getElem? (i := 3) rfl) ?_ (fun _ => rfl) rfl
      (fun _ _ => rfl) nofun hconv,
    coerces_of_declared hkeysLedger rfl (List.mem_of_getElem? (i := 4) rfl) ?_ (fun _ => rfl) rfl
      (fun _ _ => rfl) hconv,
    coerces_of_field hkeysLedger rfl (List.mem_of_getElem? (i := 5) rfl) ?_ (fun _ => rfl) rfl
      (fun _ _ => rfl) nofun hconv,
    coerces_of_field hkeysLedger rfl (List.mem_of_getElem? (i := 6) rfl) ?_ (fun _ => rfl) rfl
      (fun _ _ => rfl) nofun hconv,
    coerces_of_field hkeysLedger rfl (List.mem_of_getElem? (i := 7) rfl) ?_ (fun _ => rfl) rfl
      (fun _ _ => rfl) nofun hconv,
    coerces_of_field hkeysLedger rfl (List.mem_of_getElem? (i := 8) rfl) ?_ ?diffSkips rfl
      (fun _ _ => rfl) (fun hclio => runProcessors_ifServerClio_xrpld hclio _) hconv,
    coerces_of_plain (of_decide_eq_true rfl) rfl (List.mem_of_getElem? (i := 4) rfl) ?_
      (fun _ _ => rfl) hconv,
    coerces_of_plain (of_decide_eq_true rfl) rfl (List.mem_of_getElem? (i := 2) rfl) ?_
      (fun _ _ => rfl) hconv,
    by simp⟩, ?accountLines⟩
  case diffSkips => simp [skipsField, type, ifServerClio, Item.skips, skipsAny]
  case accountLines =>
    split
    · rename_i hxrpld
      rw [List.forall_mem_singleton]
      refine coerces_of_field (of_decide_eq_true rfl) rfl (List.mem_of_getElem? (i := 3) rfl) ?_ ?_
        rfl (fun _ _ => rfl) (fun _ => runProcessors_ifServerClio_xrpld ?_ _)
        (accountLines_asBool_xrpld hxrpld hconv)
      · simp only [AccountLines.kInputSpecV1, List.forall_mem_cons]
        and_intros
        all_goals first | exact .inl rfl | exact .inr fun _ _ => rfl | exact .inr trivial | simp
      · simp [skipsField, type, ifServerClio, Item.skips, skipsAny]
      · simpa [kIsXrpldBuild] using hxrpld
    · simp
  all_goals
    simp only [AccountTx.kInputSpecV1, AccountInfo.kInputSpecV1, Ledger.kInputSpecV1,
      NorippleCheck.kInputSpecV1, Tx.kInputSpecV1, List.forall_mem_cons]
    and_intros
    all_goals first | exact .inl rfl | exact .inr fun _ _ => rfl | exact .inr trivial | simp

/-! ## Coercion by value -/

/-- The converter and every flag follow the value. -/
structure CoercedByValue (json : Json) (b : Bool) : Prop where
  converter : ∀ key, jsonBool.parse ⟨key, some json⟩ = .ok b
  flags : ∀ flag ∈ lenientFlags, flag.Coerces json b

end Flags

end

end RpcSpec.Handlers
