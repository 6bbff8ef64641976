import RpcSpec.Dsl.Verdicts
import RpcSpec.Handlers.Accounts
import RpcSpec.Handlers.Balances
import RpcSpec.Handlers.History
import RpcSpec.Handlers.Ledgers
import RpcSpec.Handlers.Markets
import RpcSpec.Handlers.Tokens
set_option autoImplicit false

/-!
# Limits

What the `limit` of each handler accepts, and what it stores.  The lists of items differ in
their order and between the servers; each comes to a rule of four parts.

`LimitRule` has the four parts: the least number that is taken, the bounds a number is
clamped to, what stands for a limit that is absent, and whether `null` counts as absent.
`limits_bounded` says of every handler with a `limit`, and of both servers, which values
are accepted and that what is stored lies between the bounds.
-/

namespace RpcSpec.Handlers

open RpcSpec.Dsl RpcSpec.Foundation XrpldError

/-! ## Rules -/

/-- What a limit must be and what is kept of it: the least value, the bounds where it is kept
within some, the value of an absent one, and whether null counts as absent. -/
structure LimitRule where
  minimum : UInt32
  bounds : Option (UInt32 × UInt32)
  absent : Option UInt32
  nullIsAbsent : Bool
  ordered : ∀ lo hi, bounds = some (lo, hi) → lo ≤ hi
  absentWithin : ∀ lo hi value, bounds = some (lo, hi) → absent = some value →
    lo ≤ value ∧ value ≤ hi

namespace LimitRule

/-- What is kept of a limit. -/
def kept (rule : LimitRule) (n : UInt32) : UInt32 :=
  match rule.bounds with
  | some (lo, hi) => stdClamp n lo hi
  | none => n

/-- What the field reads, if it accepts. -/
def judge (rule : LimitRule) : Option Json → Option (Option UInt32)
  | none => some rule.absent
  | some .null => if rule.nullIsAbsent then some rule.absent else none
  | some json => (json.uint32?.filter (rule.minimum ≤ ·)).map fun n => some (rule.kept n)

/-- `null` is told from the numbers first, whichever of them are allowed. -/
theorem judge_of_isNull (rule : LimitRule) {key : String} {json : Json}
    (h : FieldView.isNull ⟨key, some json⟩ = true) :
    rule.judge (some json) = if rule.nullIsAbsent then some rule.absent else none := by
  cases json with
  | null => rfl
  | _ => cases h

theorem judge_of_not_isNull (rule : LimitRule) {key : String} {json : Json}
    (h : FieldView.isNull ⟨key, some json⟩ = false) : rule.judge (some json) =
      (json.uint32?.filter (rule.minimum ≤ ·)).map fun n => some (rule.kept n) := by
  cases json with
  | null => cases h
  | _ => rfl

/-- Without the exception null is refused as no integer is. -/
theorem judge_of_strict {rule : LimitRule} (h : rule.nullIsAbsent = false) (json : Json) :
    rule.judge (some json) =
      (json.uint32?.filter (rule.minimum ≤ ·)).map fun n => some (rule.kept n) := by
  cases json with
  | null =>
      rw [judge, h]
      rfl
  | _ => rfl

end LimitRule

/-- The same rule for both servers. -/
def limitRule (kLimitMin kLimitMax kLimitDefault lo : UInt32)
    (h : kLimitMin ≤ kLimitDefault ∧ kLimitDefault ≤ kLimitMax) : LimitRule where
  minimum := lo
  bounds := some (kLimitMin, kLimitMax)
  absent := some kLimitDefault
  nullIsAbsent := false
  ordered := by
    rintro _ _ ⟨⟩
    exact UInt32.le_trans h.1 h.2
  absentWithin := by
    rintro _ _ _ ⟨⟩ ⟨⟩
    exact h

/-- On xrpld there are no bounds, and null is absent. -/
def serverLimitRule [Build] (kLimitMin kLimitMax kLimitDefault : UInt32)
    (h : kLimitMin ≤ kLimitDefault ∧ kLimitDefault ≤ kLimitMax) : LimitRule where
  minimum := 1
  bounds := if kIsClioBuild then some (kLimitMin, kLimitMax) else none
  absent := some kLimitDefault
  nullIsAbsent := kIsXrpldBuild
  ordered := by
    intro _ _ hbounds
    split at hbounds
    · cases hbounds
      exact UInt32.le_trans h.1 h.2
    · cases hbounds
  absentWithin := by
    intro _ _ _ hbounds hvalue
    split at hbounds
    · cases hbounds
      cases hvalue
      exact h
    · cases hbounds

/-- No default is declared. -/
def optionalLimitRule (kLimitMin kLimitMax : UInt32) (h : kLimitMin ≤ kLimitMax) :
    LimitRule where
  minimum := kLimitMin
  bounds := some (kLimitMin, kLimitMax)
  absent := none
  nullIsAbsent := false
  ordered := by
    rintro _ _ ⟨⟩
    exact h
  absentWithin := nofun

/-- Neither a default nor bounds are declared. -/
def uncheckedLimitRule : LimitRule where
  minimum := 1
  bounds := none
  absent := none
  nullIsAbsent := false
  ordered := nofun
  absentWithin := nofun

/-! ## The items come to the rules -/

section Items

variable {key : String} {json : Json}

theorem leaves_uint32From {Value : Type} (lo : UInt32) :
    leaves ([type [.uint32], min lo] : List (Item Value)) ⟨key, some json⟩ =
      (json.uint32?.filter (lo ≤ ·)).map fun _ => ⟨key, some json⟩ := by
  rw [leaves_cons, leaves_type_uint32]
  cases hn : json.uint32? with
  | none => rfl
  | some n =>
      rw [Option.map_some, Option.bind_some, leaves_cons, leaves_min, hn]
      by_cases hlo : n < lo
      · have hnot : ¬ lo ≤ n := UInt32.not_le.mpr hlo
        simp [hlo, hnot, Option.filter]
      · have hle : lo ≤ n := UInt32.not_lt.mp hlo
        simp [hlo, hle, Option.filter, leaves_nil]

/-- The converter reads what the claim calls a 32-bit number, and nothing else. -/
theorem asUint32_toOption : (asUint32.parse ⟨key, some json⟩).toOption = json.uint32? := by
  change (rejectIf (!FieldView.isUint32 ⟨key, some json⟩) rpcInvalidParams >>= fun _ =>
    FieldView.asUint32 ⟨key, some json⟩).toOption = _
  obtain ⟨n, hn, huint, has⟩ | ⟨hnone, huint⟩ := uint32_cases key json
  · rw [huint, has, hn]
    rfl
  · rw [huint, hnone]
    rfl

/-- Items that run on every integer of the type, and leave what is kept of it. -/
structure KeepUint32 (items : List (Item UInt32)) (kept : UInt32 → UInt32) : Prop where
  absent : ∀ key, leaves items ⟨key, none⟩ = some ⟨key, none⟩
  present : ∀ key json n, json.uint32? = some n → ∃ json', json'.uint32? = some (kept n) ∧
    leaves items ⟨key, some json⟩ = some ⟨key, some json'⟩

namespace KeepUint32

variable {rest : List (Item UInt32)} {kept : UInt32 → UInt32}

theorem nil : KeepUint32 [] id where
  absent _ := leaves_nil
  present _ json _ hn := ⟨json, hn, leaves_nil⟩

/-- A default leaves a field that is there alone. -/
theorem cons_defaultTo (h : KeepUint32 rest kept) (value : UInt32) :
    KeepUint32 (defaultTo value :: rest) kept where
  absent key := by rw [leaves_cons, leaves_defaultTo, Option.bind_some, h.absent]
  present key json n hn := by
    obtain ⟨json', hjson', hleaves⟩ := h.present key json n hn
    refine ⟨json', hjson', ?_⟩
    rw [leaves_cons, leaves_defaultTo, Option.bind_some, hleaves]

/-- The bounds move the number, and what stands behind them reads the moved one. -/
theorem cons_clamp (h : KeepUint32 rest kept) (lo hi : UInt32) :
    KeepUint32 (clamp lo hi :: rest) fun n => kept (stdClamp n lo hi) where
  absent key := (leaves_cons _ _).trans (h.absent key)
  present key json n hn := by
    obtain ⟨json', hjson', hleaves⟩ :=
      h.present key _ _ (Json.uint32?_ofUint32 (stdClamp n lo hi))
    refine ⟨json', hjson', ?_⟩
    rw [leaves_cons, leaves_clamp, hn, Option.bind_some, Option.elim_some, hleaves]

theorem congr {items : List (Item UInt32)} (h : KeepUint32 rest kept)
    (hsame : leaves items = leaves rest) : KeepUint32 items kept where
  absent := by rw [hsame]; exact h.absent
  present := by rw [hsame]; exact h.present

theorem cons_ifServerClio [Build] (h : KeepUint32 rest kept) (lo hi : UInt32) :
    KeepUint32 (ifServerClio [clamp lo hi] :: rest) fun n =>
      kept (if kIsClioBuild then stdClamp n lo hi else n) := by
  cases hbuild : kIsClioBuild with
  | true =>
      apply (h.cons_clamp lo hi).congr
      funext v
      rw [leaves, runProcessors_ifServerClio (.inl rfl) hbuild]
      rfl
  | false =>
      apply h.congr
      funext v
      rw [leaves, runProcessors_not_ifServerClio hbuild]
      rfl

end KeepUint32

/-- What the field reads of a value after the type, the minimum and such items. -/
theorem resolve_uint32From (key : String) {rest : List (Item UInt32)} {kept : UInt32 → UInt32}
    (hrest : KeepUint32 rest kept) (lo : UInt32) :
    resolve ([type [.uint32], min lo] ++ rest) asUint32 ⟨key, some json⟩ =
      (json.uint32?.filter (lo ≤ ·)).map fun n => some (kept n) := by
  rw [resolve, leaves_append, leaves_uint32From]
  cases hn : json.uint32? with
  | none => rfl
  | some n =>
      obtain ⟨json', hjson', hleaves⟩ := hrest.present key json n hn
      by_cases hlo : lo ≤ n
      · rw [Option.filter_some, if_pos (decide_eq_true hlo), Option.map_some, Option.map_some,
          Option.bind_some, hleaves, Option.bind_some]
        change some <$> (asUint32.parse ⟨key, some json'⟩).toOption = _
        rw [asUint32_toOption, hjson']
        rfl
      · rw [Option.filter_some, if_neg (by simpa using hlo)]
        rfl

end Items

/-! ### The checks that differ between the servers -/

section Servers

variable [Build] {kLimitDefault : UInt32} {rest : List (Item UInt32)} {key : String}

/-- On Clio the checks are those of any limit. -/
theorem leaves_serverLimitChecks_clio (hclio : kIsClioBuild = true) (v : FieldView) :
    leaves (serverLimitChecks kLimitDefault ++ rest) v =
      leaves ([type [.uint32], min (1 : UInt32)] ++ rest) v := by
  rw [leaves, serverLimitChecks, List.cons_append, runProcessors_not_ifServerXrpld hclio,
    List.cons_append, runProcessors_not_ifServerXrpld hclio, List.cons_append, List.nil_append,
    runProcessors_ifServerClio (.inr rfl) hclio]
  rfl

theorem leaves_serverLimitChecks_xrpld (hxrpld : kIsClioBuild = false) (v : FieldView) :
    leaves (serverLimitChecks kLimitDefault ++ rest) v =
      ((nullAs (.ofUint32 kLimitDefault) : Item UInt32).leaves v).bind
        (leaves ([type [.uint32], min (1 : UInt32)] ++ rest)) := by
  have hchecks : leaves (ifServerXrpld
      [withCustomError (type [.uint32]) rpcInvalidParams
        "Invalid field 'limit', not unsigned integer.",
      withCustomError (min (1 : UInt32)) rpcInvalidParams "Invalid field 'limit'."] ::
      ifServerClio [type [.uint32], min (1 : UInt32)] :: rest) =
        leaves ([type [.uint32], min (1 : UInt32)] ++ rest) := by
    funext v
    rw [leaves, runProcessors_ifServerXrpld (.inr rfl) hxrpld, runProcessors_append,
      runProcessors_not_ifServerClio hxrpld, ← runProcessors_append, ← leaves]
    simp only [List.cons_append, List.nil_append, leaves_cons, leaves_withCustomError]
  rw [leaves, serverLimitChecks, List.cons_append, runProcessors_ifServerXrpld (.inl rfl) hxrpld,
    ← leaves, List.singleton_append, leaves_cons, ← hchecks]
  rfl

/-- No check looks at a field that is not there. -/
theorem leaves_serverLimitChecks_absent :
    leaves (serverLimitChecks kLimitDefault ++ rest) ⟨key, none⟩ = leaves rest ⟨key, none⟩ := by
  cases hbuild : kIsClioBuild with
  | true =>
      rw [leaves_serverLimitChecks_clio hbuild, leaves_append]
      rfl
  | false =>
      rw [leaves_serverLimitChecks_xrpld hbuild]
      exact leaves_append [type [.uint32], min (1 : UInt32)] rest

section Resolve

variable {kept : UInt32 → UInt32} {json : Json}

/-- A limit that is not there is accepted, and not set. -/
theorem resolve_serverLimit_absent (hrest : KeepUint32 rest kept) :
    resolve (serverLimitChecks kLimitDefault ++ rest) asUint32 ⟨key, none⟩ = some none := by
  rw [resolve, leaves_serverLimitChecks_absent, hrest.absent]
  rfl

/-- On xrpld `null` is read as the default. -/
theorem resolve_serverLimit_null (key : String) (hxrpld : kIsClioBuild = false)
    (hpositive : 1 ≤ kLimitDefault) (hrest : KeepUint32 rest kept) :
    resolve (serverLimitChecks kLimitDefault ++ rest) asUint32 ⟨key, some .null⟩ =
      some (some (kept kLimitDefault)) := by
  rw [resolve, leaves_serverLimitChecks_xrpld hxrpld, leaves_nullAs, Option.bind_some, ← resolve,
    resolve_uint32From key hrest]
  change ((Json.ofUint32 kLimitDefault).uint32?.filter _).map _ = _
  rw [Json.uint32?_ofUint32, Option.filter_some, if_pos (decide_eq_true hpositive)]
  rfl

/-- Clio makes no exception of null, and xrpld none of other values. -/
theorem resolve_serverLimit_some
    (h : kIsClioBuild = true ∨ FieldView.isNull ⟨key, some json⟩ = false)
    (hrest : KeepUint32 rest kept) :
    resolve (serverLimitChecks kLimitDefault ++ rest) asUint32 ⟨key, some json⟩ =
      (json.uint32?.filter (1 ≤ ·)).map fun n => some (kept n) := by
  rw [← resolve_uint32From key hrest, resolve, resolve]
  cases hbuild : kIsClioBuild with
  | true => rw [leaves_serverLimitChecks_clio hbuild]
  | false =>
      have hnull : FieldView.isNull ⟨key, some json⟩ = false := h.resolve_left (by simp [hbuild])
      rw [leaves_serverLimitChecks_xrpld hbuild, leaves_nullAs, Option.bind_some, hnull]
      rfl

end Resolve

/-- What follows the checks: the default and the bounds, in either order. -/
def ServerLimitTail (kLimitMin kLimitMax kLimitDefault : UInt32) (rest : List (Item UInt32)) :
    Prop :=
  rest = [ifServerClio [clamp kLimitMin kLimitMax], defaultTo kLimitDefault] ∨
    rest = [defaultTo kLimitDefault, ifServerClio [clamp kLimitMin kLimitMax]]

namespace ServerLimitTail

variable {kLimitMin kLimitMax : UInt32}

/-- Either way round, the bounds are applied on Clio and nothing on xrpld. -/
theorem keeps (htail : ServerLimitTail kLimitMin kLimitMax kLimitDefault rest) :
    KeepUint32 rest fun n => if kIsClioBuild then stdClamp n kLimitMin kLimitMax else n := by
  obtain rfl | rfl := htail
  · exact (KeepUint32.nil.cons_defaultTo kLimitDefault).cons_ifServerClio kLimitMin kLimitMax
  · exact (KeepUint32.nil.cons_ifServerClio kLimitMin kLimitMax).cons_defaultTo kLimitDefault

theorem skips (htail : ServerLimitTail kLimitMin kLimitMax kLimitDefault rest) (root : Json) :
    skipsField (serverLimitChecks kLimitDefault ++ rest) root = false := by
  obtain rfl | rfl := htail <;>
    simp [skipsField, serverLimitChecks, ifServerClio, ifServerXrpld, Item.skips, skipsAny, nullAs,
      withCustomError, type, Dsl.min, clamp, defaultTo]

/-- The default is found behind the checks, wherever it stands. -/
theorem applyDefaults {Input : Type} {key : String} {member : Member Input UInt32} {unguarded}
    (htail : ServerLimitTail kLimitMin kLimitMax kLimitDefault rest) (out : Input) :
    BoundField.applyDefaults
      ⟨key, member, serverLimitChecks kLimitDefault ++ rest, asUint32, unguarded⟩ out =
        member.assign out kLimitDefault := by
  obtain rfl | rfl := htail <;> rfl

end ServerLimitTail

/-- The rule of a limit that only Clio keeps within its bounds. -/
theorem resolve_serverLimit {kLimitMin kLimitMax : UInt32}
    (h : kLimitMin ≤ kLimitDefault ∧ kLimitDefault ≤ kLimitMax) (hpositive : 1 ≤ kLimitDefault)
    (htail : ServerLimitTail kLimitMin kLimitMax kLimitDefault rest) (json : Option Json) :
    (resolve (serverLimitChecks kLimitDefault ++ rest) asUint32 ⟨key, json⟩).map
        (·.elim (some kLimitDefault) some) =
      (serverLimitRule kLimitMin kLimitMax kLimitDefault h).judge json := by
  have hkept : (serverLimitRule kLimitMin kLimitMax kLimitDefault h).kept = fun n =>
      if kIsClioBuild then stdClamp n kLimitMin kLimitMax else n := by
    funext n
    cases hbuild : kIsClioBuild <;> simp [serverLimitRule, LimitRule.kept, hbuild]
  have hsome {json : Json}
      (hjson : kIsClioBuild = true ∨ FieldView.isNull ⟨key, some json⟩ = false) :
      (resolve (serverLimitChecks kLimitDefault ++ rest) asUint32 ⟨key, some json⟩).map
          (·.elim (some kLimitDefault) some) = (json.uint32?.filter (1 ≤ ·)).map fun n =>
        some ((serverLimitRule kLimitMin kLimitMax kLimitDefault h).kept n) := by
    rw [resolve_serverLimit_some hjson htail.keeps, hkept, Option.map_map]
    rfl
  cases json with
  | none =>
      rw [resolve_serverLimit_absent htail.keeps]
      rfl
  | some json =>
      cases hnull : FieldView.isNull ⟨key, some json⟩ with
      | false => rw [hsome (.inr hnull), LimitRule.judge_of_not_isNull _ hnull]; rfl
      | true =>
          cases hbuild : kIsClioBuild with
          | true =>
              have hstrict : (serverLimitRule kLimitMin kLimitMax kLimitDefault h).nullIsAbsent =
                  false := by
                simp [serverLimitRule, kIsXrpldBuild, hbuild]
              rw [hsome (.inl hbuild), LimitRule.judge_of_strict hstrict]
              rfl
          | false =>
              obtain rfl : json = .null := by
                cases json with
                | null => rfl
                | _ => cases hnull
              rw [resolve_serverLimit_null key hbuild hpositive htail.keeps,
                LimitRule.judge_of_isNull _ hnull]
              simp [serverLimitRule, kIsXrpldBuild, hbuild]

end Servers

/-! ### The same items for both servers -/

section Plain

variable {key : String} {rest : List (Item UInt32)} {absent : Option UInt32}

/-- The rule of the type, a minimum and items that keep integers as the rule does. -/
theorem resolve_plainLimit (key : String) (rule : LimitRule) (hstrict : rule.nullIsAbsent = false)
    (hrest : KeepUint32 rest rule.kept) (json : Option Json) :
    (resolve ([type [.uint32], min rule.minimum] ++ rest) asUint32 ⟨key, json⟩).map
        (·.elim rule.absent some) = rule.judge json := by
  cases json with
  | none =>
      have hchecks : leaves ([type [.uint32], min rule.minimum] : List (Item UInt32))
          ⟨key, none⟩ = some ⟨key, none⟩ := rfl
      rw [resolve, leaves_append, hchecks, Option.bind_some, hrest.absent]
      rfl
  | some json =>
      rw [resolve_uint32From key hrest, LimitRule.judge_of_strict hstrict, Option.map_map]
      rfl

end Plain

/-! ## Specs -/

section Specs

variable {Input : Type} [InputAggregate Input] [Build] [LibXrpl] {spec : TypedSpec Input}
  {read : Input → Option UInt32} {rule : LimitRule}

/-- No limit is given. -/
inductive LimitRule.Unlimited (rule : LimitRule) : Option Json → Prop
  | absent : Unlimited rule none
  | null (h : rule.nullIsAbsent = true) : Unlimited rule (some .null)

/-- The integer between the bounds, where there are some, that is nearest. -/
def LimitRule.nearest (rule : LimitRule) (n : Int) : Int :=
  match rule.bounds with
  | some (lo, hi) => Min.min (max n lo.toNat) hi.toNat
  | none => n

/-- How a spec bounds the limit. -/
structure LimitBounded (spec : TypedSpec Input) (read : Input → Option UInt32)
    (rule : LimitRule) : Prop where
  accepts : ∀ root, spec.OthersPass "limit" root →
    ((∃ input root', spec.parse root = .ok input root') ↔
      rule.Unlimited (root.member? "limit") ∨ ∃ json n, root.member? "limit" = some json ∧
        json.integer? = some n ∧ rule.minimum.toNat ≤ n ∧ n ≤ 2 ^ 32 - 1)
  unlimited : ∀ root input root', spec.parse root = .ok input root' →
    rule.Unlimited (root.member? "limit") → read input = rule.absent
  limited : ∀ root input root', spec.parse root = .ok input root' →
    ∀ json n, root.member? "limit" = some json → json.integer? = some n →
      ∃ m, read input = some m ∧ (m.toNat : Int) = rule.nearest n
  within : ∀ root input root', spec.parse root = .ok input root' →
    ∀ lo hi m, rule.bounds = some (lo, hi) → read input = some m → lo ≤ m ∧ m ≤ hi

namespace LimitRule

omit [Build] [LibXrpl]

/-- What is kept is the nearest number in the bounds. -/
theorem toNat_kept (rule : LimitRule) (n : UInt32) :
    ((rule.kept n).toNat : Int) = rule.nearest n.toNat := by
  unfold kept nearest
  cases hbounds : rule.bounds with
  | none => rfl
  | some bounds =>
      obtain ⟨lo, hi⟩ := bounds
      have hordered := UInt32.le_iff_toNat_le.mp (rule.ordered lo hi hbounds)
      simp only [stdClamp, UInt32.lt_iff_toNat_lt]
      split
      · omega
      · split <;> omega

theorem kept_within {rule : LimitRule} {lo hi : UInt32} (h : rule.bounds = some (lo, hi))
    (n : UInt32) : lo ≤ rule.kept n ∧ rule.kept n ≤ hi := by
  have hordered := rule.ordered lo hi h
  rw [kept, h]
  simp only [stdClamp, UInt32.le_iff_toNat_le, UInt32.lt_iff_toNat_lt] at hordered ⊢
  split
  · exact ⟨le_rfl, hordered⟩
  · split <;> omega

/-- An integer is accepted from the minimum on, and what is kept of it is stored. -/
theorem judge_of_integer (rule : LimitRule) {json : Json} {n : Nat}
    (h : json.integer? = some (n : Int)) (hn : n < 2 ^ 32) : rule.judge (some json) =
      if rule.minimum.toNat ≤ n then some (some (rule.kept (UInt32.ofNat n))) else none := by
  have hnull : FieldView.isNull ⟨"", some json⟩ = false := by
    cases json <;> first | rfl | cases h
  have hle : rule.minimum ≤ UInt32.ofNat n ↔ rule.minimum.toNat ≤ n := by
    rw [UInt32.le_iff_toNat_le, UInt32.toNat_ofNat_of_lt' hn]
  rw [rule.judge_of_not_isNull hnull, Json.uint32?_eq_some h hn, Option.filter_some]
  simp only [decide_eq_true_eq, hle]
  split <;> rfl

theorem judge_of_unlimited {rule : LimitRule} {json : Option Json} (h : rule.Unlimited json) :
    rule.judge json = some rule.absent := by
  cases h with
  | absent => rfl
  | null h => exact if_pos h

/-- What is accepted is no limit or an integer in its range. -/
theorem cases_of_judge {rule : LimitRule} {json : Option Json} {value : Option UInt32}
    (h : rule.judge json = some value) :
    rule.Unlimited json ∧ value = rule.absent ∨
      ∃ json' n, json = some json' ∧ json'.integer? = some (n.toNat : Int) ∧ rule.minimum ≤ n ∧
        value = some (rule.kept n) := by
  cases json with
  | none => exact .inl ⟨.absent, (Option.some.inj h).symm⟩
  | some json =>
      cases hnull : FieldView.isNull ⟨"", some json⟩ with
      | true =>
          rw [rule.judge_of_isNull hnull] at h
          split at h
          · rename_i hallowed
            cases json with
            | null => exact .inl ⟨.null hallowed, (Option.some.inj h).symm⟩
            | _ => cases hnull
          · cases h
      | false =>
          rw [rule.judge_of_not_isNull hnull] at h
          obtain ⟨n, hn, rfl⟩ := Option.map_eq_some_iff.mp h
          obtain ⟨hn, hmin⟩ := Option.filter_eq_some_iff.mp hn
          exact .inr ⟨json, n, rfl, Json.integer?_of_uint32? hn, of_decide_eq_true hmin, rfl⟩

/-- The numbers a rule accepts, told apart from what counts as no limit. -/
theorem judge_isSome_iff {rule : LimitRule} {json : Option Json} :
    (rule.judge json).isSome = true ↔ rule.Unlimited json ∨ ∃ json' n, json = some json' ∧
      json'.integer? = some n ∧ rule.minimum.toNat ≤ n ∧ n ≤ 2 ^ 32 - 1 := by
  constructor
  · intro h
    obtain ⟨value, hvalue⟩ := Option.isSome_iff_exists.mp h
    obtain ⟨hunlimited, -⟩ | ⟨json', n, rfl, hn, hmin, -⟩ := cases_of_judge hvalue
    · exact .inl hunlimited
    · have hlt := n.toNat_lt
      rw [UInt32.le_iff_toNat_le] at hmin
      exact .inr ⟨json', n.toNat, rfl, hn, by omega, by omega⟩
  · rintro (hunlimited | ⟨json', n, rfl, hn, hmin, hmax⟩)
    · rw [judge_of_unlimited hunlimited, Option.isSome_some]
    · lift n to Nat using by omega
      rw [rule.judge_of_integer hn (by omega), if_pos (by omega), Option.isSome_some]

end LimitRule

/-- From the verdict on the field to the statement about the handler. -/
theorem limitBounded_of_decides (h : Decides spec "limit" read rule.judge) :
    LimitBounded spec read rule where
  accepts root hpass := (h.accepts root hpass).trans LimitRule.judge_isSome_iff
  unlimited root input root' hrun hunlimited := by
    have hverdict := h.reads root input root' hrun
    rw [LimitRule.judge_of_unlimited hunlimited] at hverdict
    exact (Option.some.inj hverdict).symm
  limited root input root' hrun json n hjson hn := by
    have hverdict := h.reads root input root' hrun
    rw [hjson] at hverdict
    obtain ⟨hunlimited, -⟩ | ⟨json', m, hjson', hm, -, hread⟩ := LimitRule.cases_of_judge hverdict
    · cases hunlimited
      cases hn
    · obtain rfl := Option.some.inj hjson'
      refine ⟨_, hread, ?_⟩
      rw [rule.toNat_kept, Option.some.inj (hm.symm.trans hn)]
  within root input root' hrun lo hi m hbounds hread := by
    have hverdict := h.reads root input root' hrun
    obtain ⟨-, habsent⟩ | ⟨json, n, -, -, -, hkept⟩ := LimitRule.cases_of_judge hverdict
    · exact rule.absentWithin lo hi m hbounds (habsent.symm.trans hread)
    · obtain rfl := Option.some.inj (hkept.symm.trans hread)
      exact LimitRule.kept_within hbounds n

/-! ### The fields of the limits -/

variable {member : Member Input UInt32} {kLimitMin kLimitMax kLimitDefault lo : UInt32}
  {h : kLimitMin ≤ kLimitDefault ∧ kLimitDefault ≤ kLimitMax} {unguarded}

/-- The limits that are checked alike on both servers. -/
theorem limitBounded_of_limitItems
    (hset : spec.SetBy read (field "limit" member
      (limitItems kLimitMin kLimitMax kLimitDefault lo) asUint32 unguarded))
    (hassign : ∀ out value, read (member.assign out value) = some value) :
    LimitBounded spec read (limitRule kLimitMin kLimitMax kLimitDefault lo h) := by
  apply limitBounded_of_decides
  have hdecides := decides_of_field some (some kLimitDefault) hset (fun _ => rfl) hassign
    (.inl fun out => hassign out kLimitDefault)
  have hresolve := resolve_plainLimit "limit"
    (limitRule kLimitMin kLimitMax kLimitDefault lo h) rfl
    ((KeepUint32.nil.cons_defaultTo kLimitDefault).cons_clamp kLimitMin kLimitMax)
  exact hdecides.congr hresolve

/-- The spec has a limit whose checks differ between the servers. -/
inductive ServerLimited (spec : TypedSpec Input) (read : Input → Option UInt32)
    (kLimitMin kLimitMax kLimitDefault : UInt32) : Prop
  | intro {member : Member Input UInt32} {rest : List (Item UInt32)} {unguarded}
      (hset : spec.SetBy read (field "limit" member (serverLimitChecks kLimitDefault ++ rest)
        asUint32 unguarded))
      (hassign : ∀ out value, read (member.assign out value) = some value)
      (hpositive : 1 ≤ kLimitDefault)
      (htail : ServerLimitTail kLimitMin kLimitMax kLimitDefault rest) :
      ServerLimited spec read kLimitMin kLimitMax kLimitDefault

omit [LibXrpl] in
/-- The limits that only Clio keeps within bounds. -/
theorem serverLimited_of_items {unguarded}
    (hset : spec.SetBy read (field "limit" member
      (serverLimitItems kLimitMin kLimitMax kLimitDefault) asUint32 unguarded))
    (hassign : ∀ out value, read (member.assign out value) = some value)
    (hpositive : 1 ≤ kLimitDefault) :
    ServerLimited spec read kLimitMin kLimitMax kLimitDefault :=
  .intro hset hassign hpositive (.inl rfl)

theorem ServerLimited.bounded
    (hlimited : ServerLimited spec read kLimitMin kLimitMax kLimitDefault) :
    LimitBounded spec read (serverLimitRule kLimitMin kLimitMax kLimitDefault h) := by
  obtain ⟨hset, hassign, hpositive, htail⟩ := hlimited
  apply limitBounded_of_decides
  have hdecides := decides_of_field some (some kLimitDefault) hset htail.skips hassign
    (.inl fun out => by rw [htail.applyDefaults, hassign])
  exact hdecides.congr (resolve_serverLimit h hpositive htail)

theorem limitBounded_of_optional {hle : kLimitMin ≤ kLimitMax} {unguarded}
    (hset : spec.SetBy read (field "limit" member
      [type [.uint32], min kLimitMin, clamp kLimitMin kLimitMax] asUint32 unguarded))
    (hassign : ∀ out value, read (member.assign out value) = some value)
    (hinit : read InputAggregate.init = none) :
    LimitBounded spec read (optionalLimitRule kLimitMin kLimitMax hle) := by
  apply limitBounded_of_decides
  have hdecides := decides_of_field some none hset (fun _ => rfl) hassign (.inr ⟨rfl, hinit⟩)
  exact hdecides.congr (resolve_plainLimit _ (optionalLimitRule kLimitMin kLimitMax hle) rfl
    (KeepUint32.nil.cons_clamp kLimitMin kLimitMax))

/-- The one limit with a lower bound alone. -/
theorem limitBounded_of_unchecked {unguarded}
    (hset : spec.SetBy read (field "limit" member [type [.uint32], min (1 : UInt32)] asUint32
      unguarded))
    (hassign : ∀ out value, read (member.assign out value) = some value)
    (hinit : read InputAggregate.init = none) :
    LimitBounded spec read uncheckedLimitRule := by
  apply limitBounded_of_decides
  have hdecides := decides_of_field some none hset (fun _ => rfl) hassign (.inr ⟨rfl, hinit⟩)
  exact hdecides.congr (resolve_plainLimit _ uncheckedLimitRule rfl KeepUint32.nil)

end Specs

/-! ## The handlers -/

section Handlers

variable [Build] [LibXrpl]

/-- The handlers whose limit only Clio keeps within its bounds. -/
structure ServerLimits : Prop where
  accountChannels : ServerLimited AccountChannels.kInputSpec (some ·.limit)
    AccountChannels.kLimitMin AccountChannels.kLimitMax AccountChannels.kLimitDefault
  accountCurrencies : ServerLimited AccountCurrencies.kInputSpec (some ·.limit)
    AccountCurrencies.kLimitMin AccountCurrencies.kLimitMax AccountCurrencies.kLimitDefault
  accountLines : ServerLimited AccountLines.kInputSpecV1 (some ·.limit)
    AccountLines.kLimitMin AccountLines.kLimitMax AccountLines.kLimitDefault
  accountNfts : ServerLimited AccountNfts.kInputSpec (some ·.limit)
    AccountNfts.kLimitMin AccountNfts.kLimitMax AccountNfts.kLimitDefault
  accountOffersV1 : ServerLimited AccountOffers.kInputSpecV1 (some ·.limit)
    AccountOffers.kLimitMin AccountOffers.kLimitMax AccountOffers.kLimitDefault
  accountOffersV2 : ServerLimited AccountOffers.kInputSpecV2 (some ·.limit)
    AccountOffers.kLimitMin AccountOffers.kLimitMax AccountOffers.kLimitDefault
  bookOffers : ServerLimited BookOffers.kInputSpec (some ·.limit)
    BookOffers.kLimitMin BookOffers.kLimitMax BookOffers.kLimitDefault
  nftOffersCommon : ServerLimited NftOffersCommon.kInputSpec (some ·.limit)
    NftOffersCommon.kLimitMin NftOffersCommon.kLimitMax NftOffersCommon.kLimitDefault

/-- The two versions of the spec share this limit. -/
theorem accountOffers_serverLimited : ServerLimited AccountOffers.kInputSpecV1 (some ·.limit)
    AccountOffers.kLimitMin AccountOffers.kLimitMax AccountOffers.kLimitDefault :=
  serverLimited_of_items
    (.of_index 2 rfl rfl rfl (by simp [AccountOffers.kInputSpecV1])) (fun _ _ => rfl) (by decide)

/-- The handlers whose limit only Clio keeps within bounds. -/
theorem serverLimits : ServerLimits where
  accountChannels := .intro (.of_index 3 rfl rfl rfl (by simp [AccountChannels.kInputSpec]))
    (fun _ _ => rfl) (by decide) (.inr rfl)
  accountCurrencies := serverLimited_of_items
    (.of_index 3 rfl rfl rfl (by simp [AccountCurrencies.kInputSpec])) (fun _ _ => rfl) (by decide)
  accountLines := serverLimited_of_items
    (.of_index 4 rfl rfl rfl (by simp [AccountLines.kInputSpecV1])) (fun _ _ => rfl) (by decide)
  accountNfts := serverLimited_of_items
    (.of_index 2 rfl rfl rfl (by simp [AccountNfts.kInputSpec])) (fun _ _ => rfl) (by decide)
  accountOffersV1 := accountOffers_serverLimited
  accountOffersV2 := accountOffers_serverLimited
  bookOffers := .intro (.of_index 5 rfl rfl rfl (by simp [BookOffers.kInputSpec]))
    (fun _ _ => rfl) (by decide) (.inr rfl)
  nftOffersCommon := .intro (.of_index 2 rfl rfl rfl (by simp [NftOffersCommon.kInputSpec]))
    (fun _ _ => rfl) (by decide) (.inr rfl)

/-- The limit of every handler that has one is bounded by its rule. -/
structure LimitsBounded : Prop where
  accountChannels : LimitBounded AccountChannels.kInputSpec (some ·.limit)
    (serverLimitRule AccountChannels.kLimitMin AccountChannels.kLimitMax
      AccountChannels.kLimitDefault (by decide))
  accountCurrencies : LimitBounded AccountCurrencies.kInputSpec (some ·.limit)
    (serverLimitRule AccountCurrencies.kLimitMin AccountCurrencies.kLimitMax
      AccountCurrencies.kLimitDefault (by decide))
  accountLines : LimitBounded AccountLines.kInputSpecV1 (some ·.limit)
    (serverLimitRule AccountLines.kLimitMin AccountLines.kLimitMax
      AccountLines.kLimitDefault (by decide))
  accountNfts : LimitBounded AccountNfts.kInputSpec (some ·.limit)
    (serverLimitRule AccountNfts.kLimitMin AccountNfts.kLimitMax
      AccountNfts.kLimitDefault (by decide))
  accountOffersV1 : LimitBounded AccountOffers.kInputSpecV1 (some ·.limit)
    (serverLimitRule AccountOffers.kLimitMin AccountOffers.kLimitMax
      AccountOffers.kLimitDefault (by decide))
  accountOffersV2 : LimitBounded AccountOffers.kInputSpecV2 (some ·.limit)
    (serverLimitRule AccountOffers.kLimitMin AccountOffers.kLimitMax
      AccountOffers.kLimitDefault (by decide))
  bookOffers : LimitBounded BookOffers.kInputSpec (some ·.limit)
    (serverLimitRule BookOffers.kLimitMin BookOffers.kLimitMax BookOffers.kLimitDefault (by decide))
  nftOffersCommon : LimitBounded NftOffersCommon.kInputSpec (some ·.limit)
    (serverLimitRule NftOffersCommon.kLimitMin NftOffersCommon.kLimitMax
      NftOffersCommon.kLimitDefault (by decide))
  accountMptokenIssuances : LimitBounded AccountMptokenIssuances.kInputSpec (some ·.limit)
    (limitRule AccountMptokenIssuances.kLimitMin AccountMptokenIssuances.kLimitMax
      AccountMptokenIssuances.kLimitDefault 1 (by decide))
  accountMptokens : LimitBounded AccountMptokens.kInputSpec (some ·.limit)
    (limitRule AccountMptokens.kLimitMin AccountMptokens.kLimitMax
      AccountMptokens.kLimitDefault 1 (by decide))
  accountObjects : LimitBounded AccountObjects.kInputSpecV1 (some ·.limit)
    (limitRule AccountObjects.kLimitMin AccountObjects.kLimitMax
      AccountObjects.kLimitDefault 1 (by decide))
  nftsByIssuer : LimitBounded NftsByIssuer.kInputSpec (some ·.limit)
    (limitRule NftsByIssuer.kLimitMin NftsByIssuer.kLimitMax
      NftsByIssuer.kLimitDefault 1 (by decide))
  norippleCheckV1 : LimitBounded NorippleCheck.kInputSpecV1 (some ·.limit)
    (limitRule NorippleCheck.kLimitMin NorippleCheck.kLimitMax
      NorippleCheck.kLimitDefault NorippleCheck.kLimitMin (by decide))
  norippleCheckV2 : LimitBounded NorippleCheck.kInputSpecV2 (some ·.limit)
    (limitRule NorippleCheck.kLimitMin NorippleCheck.kLimitMax
      NorippleCheck.kLimitDefault NorippleCheck.kLimitMin (by decide))
  accountTxV1 : LimitBounded AccountTx.kInputSpecV1 (·.limit)
    (optionalLimitRule AccountTx.kLimitMin AccountTx.kLimitMax (by decide))
  accountTxV2 : LimitBounded AccountTx.kInputSpecV2 (·.limit)
    (optionalLimitRule AccountTx.kLimitMin AccountTx.kLimitMax (by decide))
  mptHolders : LimitBounded MptHolders.kInputSpec (·.limit)
    (optionalLimitRule MptHolders.kLimitMin MptHolders.kLimitMax (by decide))
  mptokenIssuanceHistory : LimitBounded MptokenIssuanceHistory.kInputSpec (·.limit)
    (optionalLimitRule MptokenIssuanceHistory.kLimitMin MptokenIssuanceHistory.kLimitMax
      (by decide))
  nftHistoryV1 : LimitBounded NftHistory.kInputSpecV1 (·.limit)
    (optionalLimitRule NftHistory.kLimitMin NftHistory.kLimitMax (by decide))
  nftHistoryV2 : LimitBounded NftHistory.kInputSpecV2 (·.limit)
    (optionalLimitRule NftHistory.kLimitMin NftHistory.kLimitMax (by decide))
  ledgerData : LimitBounded LedgerData.kInputSpec (·.limit) uncheckedLimitRule

/-- The two versions of the spec share this limit. -/
theorem nftHistory_limit : LimitBounded NftHistory.kInputSpecV1 (·.limit)
    (optionalLimitRule NftHistory.kLimitMin NftHistory.kLimitMax (by decide)) :=
  limitBounded_of_optional
    (.of_index 4 rfl rfl rfl (by simp [NftHistory.kInputSpecV1])) (fun _ _ => rfl) rfl

/-- The limit of every handler that has one, in both builds and all versions: which requests
are accepted, what stands for no limit, and that a number is kept or moved to the nearest
bound. -/
theorem limits_bounded : LimitsBounded where
  accountChannels := serverLimits.accountChannels.bounded
  accountCurrencies := serverLimits.accountCurrencies.bounded
  accountLines := serverLimits.accountLines.bounded
  accountNfts := serverLimits.accountNfts.bounded
  accountOffersV1 := serverLimits.accountOffersV1.bounded
  accountOffersV2 := serverLimits.accountOffersV2.bounded
  bookOffers := serverLimits.bookOffers.bounded
  nftOffersCommon := serverLimits.nftOffersCommon.bounded
  accountMptokenIssuances := limitBounded_of_limitItems
    (.of_index 2 rfl rfl rfl (by simp [AccountMptokenIssuances.kInputSpec])) fun _ _ => rfl
  accountMptokens := limitBounded_of_limitItems
    (.of_index 2 rfl rfl rfl (by simp [AccountMptokens.kInputSpec])) fun _ _ => rfl
  accountObjects := limitBounded_of_limitItems
    (.of_index 2 rfl rfl rfl (by simp [AccountObjects.kInputSpecV1])) fun _ _ => rfl
  nftsByIssuer := limitBounded_of_limitItems
    (.of_index 3 rfl rfl rfl (by simp [NftsByIssuer.kInputSpec])) fun _ _ => rfl
  norippleCheckV1 := limitBounded_of_limitItems
    (.of_index 3 rfl rfl rfl (by simp [NorippleCheck.kInputSpecV1])) fun _ _ => rfl
  norippleCheckV2 := limitBounded_of_limitItems
    (.extend (.of_index 3 rfl rfl rfl (by simp [NorippleCheck.kInputSpecV1])) rfl (by simp)
      (by simp)) fun _ _ => rfl
  accountTxV1 := limitBounded_of_optional
    (.of_index 5 rfl rfl rfl (by simp [AccountTx.kInputSpecV1])) (fun _ _ => rfl) rfl
  mptHolders := limitBounded_of_optional
    (.of_index 4 rfl rfl rfl (by simp [MptHolders.kInputSpec])) (fun _ _ => rfl) rfl
  mptokenIssuanceHistory := limitBounded_of_optional
    (.of_index 8 rfl rfl rfl (by simp [MptokenIssuanceHistory.kInputSpec])) (fun _ _ => rfl) rfl
  accountTxV2 := limitBounded_of_optional
    (.extend (.of_index 5 rfl rfl rfl (by simp [AccountTx.kInputSpecV1])) rfl (by simp) (by simp))
    (fun _ _ => rfl) rfl
  nftHistoryV1 := nftHistory_limit
  nftHistoryV2 := nftHistory_limit
  ledgerData := limitBounded_of_unchecked
    (.of_index 2 rfl rfl rfl (by simp [LedgerData.kInputSpec])) (fun _ _ => rfl) rfl

end Handlers

end RpcSpec.Handlers
