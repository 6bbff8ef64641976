import RpcSpec.Admission.ProtobufVisitor
set_option autoImplicit false

/-!
# Packed fields of fixed width (`visitPackedFixed`)

The visitor of a packed run of 4- or 8-byte elements, and which number it reports
for each of them.  The element types that the schema may name differ in their width
and their signedness; the traits of `uint32_t` are those of `int32_t`, so that an
element of 2^31 or more is reported as a negative number.
-/

namespace RpcSpec.Admission

open RpcSpec.Foundation

/-- The schema's element type, `T`. -/
inductive PackedType where
  | uint32
  | int32
  | uint64
  | int64
  deriving DecidableEq, Repr

/-- `detail::PackedTrait<T>`, by what the visitor uses it for. -/
structure PackedTrait where
  /-- `sizeof(ReadType)` -/
  kSize : Nat
  /-- `static_cast<int64_t>(static_cast<WriteType>(element))` -/
  widen : Nat → Int64

namespace PackedTrait

/-- Read as `uint32_t`, interpreted as `int32_t`. -/
def read32WriteInt32 : PackedTrait where
  kSize := 4
  widen element := (UInt32.ofNat element).toInt32.toInt64

/-- Read as `uint64_t`, interpreted as `int64_t`. -/
def read64WriteInt64 : PackedTrait where
  kSize := 8
  widen element := (UInt64.ofNat element).toInt64

end PackedTrait

namespace PackedType

/-- The packed trait the visitor uses for the type. -/
def trait : PackedType → PackedTrait
  | .uint32 => .read32WriteInt32
  | .int32 => .read32WriteInt32
  | .uint64 => .read64WriteInt64
  | .int64 => .read64WriteInt64

end PackedType

variable {σ : Type}

/-- The loop of `visitPackedFixed`. -/
def packedLoop (T : PackedType) (body : ByteSpan) (field : UInt64) (check : Check σ) :
    While (VisitState σ) (AdmissionDecision × σ) where
  guard state := sizeAdd state.pos T.trait.kSize ≤ body.size
  body state :=
    let element := readLittleEndian ((body.bytes.drop state.pos).take T.trait.kSize)
    offer check state.check (scalarEvent field (T.trait.widen element))
      (sizeAdd state.pos T.trait.kSize)
  exit state := (.admit_ 0, state.check)

/-- `visitPackedFixed<T>(body, field, check)` returns `result`, leaving the check in
the state that comes with it. -/
def PackedReturns (T : PackedType) (body : ByteSpan) (field : UInt64) (check : Check σ) (s : σ)
    (result : AdmissionDecision × σ) : Prop :=
  (packedLoop T body field check).Returns ⟨0, s⟩ result

/-! ## What is reported -/

/-- The state of a check that has been fed the events in turn. -/
def feed (check : Check σ) (s : σ) (events : List VisitEvent) : σ :=
  events.foldl (fun s event => (check s event).2) s

/-- The whole elements of the run, in order. -/
def packedElements (kSize : Nat) (body : ByteSpan) : List Bytes :=
  (List.range (body.size / kSize)).map fun i => (body.bytes.drop (i * kSize)).take kSize

/-- The events the visitor emits. -/
def packedEvents (T : PackedType) (body : ByteSpan) (field : UInt64) : List VisitEvent :=
  (packedElements T.trait.kSize body).map fun element =>
    scalarEvent field (T.trait.widen (readLittleEndian element))

theorem feed_recording (events recorded : List VisitEvent) :
    feed recording recorded events = recorded ++ events := by
  induction events generalizing recorded with
  | nil => simp [feed]
  | cons event rest ih =>
      rw [feed, List.foldl_cons]
      simpa [recording, feed] using ih (recorded ++ [event])

theorem offer_of_admitsAll {check : Check σ} (h : AdmitsAll check) (s : σ) (event : VisitEvent)
    (pos : Nat) : offer check s event pos = .next ⟨pos, (check s event).2⟩ := by
  have hadmit := h s event
  unfold offer
  cases hcheck : check s event with
  | mk decision s' =>
      rw [hcheck] at hadmit
      have hdrop : decision.dropped = false := by
        simpa [AdmissionDecision.dropped_eq_not_admitted] using hadmit
      simp [hdrop]

theorem kSize_pos (T : PackedType) : 0 < T.trait.kSize ∧ T.trait.kSize ≤ 8 := by
  cases T <;> decide

/-- From the element with number `i` on the loop reports the elements left. -/
theorem packedLoop_returns {check : Check σ} (h : AdmitsAll check) (T : PackedType)
    (body : ByteSpan) (field : UInt64) :
    ∀ (left i : Nat) (s : σ), i + left = body.size / T.trait.kSize →
      (packedLoop T body field check).Returns ⟨i * T.trait.kSize, s⟩
        (.admit_ 0, feed check s ((packedEvents T body field).drop i)) := by
  obtain ⟨hpos, hle⟩ := kSize_pos T
  have hbody := body.size_lt
  have hmul : body.size / T.trait.kSize * T.trait.kSize ≤ body.size := Nat.div_mul_le_self _ _
  have hcount : (packedEvents T body field).length = body.size / T.trait.kSize := by
    simp [packedEvents, packedElements]
  intro left
  induction left with
  | zero =>
      intro i s hi
      have hstop : body.size < i * T.trait.kSize + T.trait.kSize := by
        rw [← Nat.succ_mul, ← Nat.div_lt_iff_lt_mul hpos]
        omega
      have hguard : (packedLoop T body field check).guard ⟨i * T.trait.kSize, s⟩ = false := by
        have hnowrap : i * T.trait.kSize ≤ body.size := by
          rw [show i = body.size / T.trait.kSize by omega]
          exact hmul
        refine decide_eq_false ?_
        rw [Nat.not_le, sizeAdd, Nat.mod_eq_of_lt]
        · exact hstop
        · simp only [ByteSpan.size] at *
          omega
      rw [List.drop_eq_nil_of_le (by omega)]
      exact While.returns_of_guard_false hguard
  | succ left ih =>
      intro i s hi
      have hin : i < body.size / T.trait.kSize := by omega
      have hfits : i * T.trait.kSize + T.trait.kSize ≤ body.size := by
        rw [← Nat.succ_mul, ← Nat.le_div_iff_mul_le hpos]
        omega
      have hnext : sizeAdd (i * T.trait.kSize) T.trait.kSize = (i + 1) * T.trait.kSize := by
        rw [Nat.succ_mul, sizeAdd, Nat.mod_eq_of_lt]
        simp only [ByteSpan.size] at *
        omega
      have hguard : (packedLoop T body field check).guard ⟨i * T.trait.kSize, s⟩ = true := by
        simp only [packedLoop, hnext, Nat.succ_mul, decide_eq_true_eq]
        exact hfits
      have hevent : (packedEvents T body field).drop i =
          scalarEvent field (T.trait.widen (readLittleEndian
            ((body.bytes.drop (i * T.trait.kSize)).take T.trait.kSize))) ::
            (packedEvents T body field).drop (i + 1) := by
        rw [List.drop_eq_getElem_cons (by omega)]
        simp [packedEvents, packedElements]
      have hstep : (packedLoop T body field check).body ⟨i * T.trait.kSize, s⟩ = _ :=
        offer_of_admitsAll h s _ _
      rw [While.returns_iff_of_next hguard hstep, hnext, hevent]
      exact ih (i + 1) _ (by omega)

/-- The check sees one event for each whole element and nothing of what is left over. -/
theorem packedReturns_of_admitsAll {check : Check σ} (h : AdmitsAll check) (T : PackedType)
    (body : ByteSpan) (field : UInt64) (s : σ) :
    PackedReturns T body field check s
      (.admit_ 0, feed check s (packedEvents T body field)) := by
  have hreturns := packedLoop_returns h T body field _ 0 s (Nat.zero_add _)
  rwa [Nat.zero_mul, List.drop_zero] at hreturns

/-! ## What the schema says -/

/-- `sizeof(T)`. -/
def PackedType.size : PackedType → Nat
  | .uint32 => 4
  | .int32 => 4
  | .uint64 => 8
  | .int64 => 8

/-- The type is a signed one. -/
def PackedType.signed : PackedType → Bool
  | .uint32 => false
  | .int32 => true
  | .uint64 => false
  | .int64 => true

/-- The number the bytes of an element stand for in the schema's type. -/
def PackedType.valueOf (T : PackedType) (element : Bytes) : Int :=
  let n : Int := readLittleEndian element
  if T.signed then n.bmod (2 ^ (8 * T.size)) else n

/-- The events of a visitor that reads every element as the schema says. -/
def schemaEvents (T : PackedType) (body : ByteSpan) (field : UInt64) : List VisitEvent :=
  (packedElements T.size body).map fun element =>
    scalarEvent field (Int64.ofInt (T.valueOf element))

/-- The visitor feeds every check that admits all events the elements as the schema
says, and admits. -/
def DecodesAsSchema (T : PackedType) (body : ByteSpan) : Prop :=
  ∀ (field : UInt64) (σ : Type) (check : Check σ) (s : σ), AdmitsAll check →
    PackedReturns T body field check s (.admit_ 0, feed check s (schemaEvents T body field))

theorem kSize_eq_size (T : PackedType) : T.trait.kSize = T.size := by
  cases T <;> rfl

theorem readLittleEndian_lt (bytes : Bytes) : readLittleEndian bytes < 256 ^ bytes.length := by
  induction bytes with
  | nil => simp [readLittleEndian]
  | cons byte rest ih =>
      have hbyte := byte.toNat_lt
      rw [readLittleEndian, List.length_cons, Nat.pow_succ]
      omega

theorem length_of_mem_packedElements {kSize : Nat} {body : ByteSpan} {element : Bytes}
    (h : element ∈ packedElements kSize body) : element.length = kSize := by
  obtain ⟨i, hi, rfl⟩ := List.mem_map.mp h
  have hin : (i + 1) * kSize ≤ body.size :=
    (Nat.mul_le_mul_right kSize (List.mem_range.mp hi)).trans (Nat.div_mul_le_self _ _)
  rw [Nat.succ_mul, ByteSpan.size] at hin
  rw [List.length_take, List.length_drop]
  omega

/-! ## Where the two agree -/

theorem toInt_widen32 (n : Nat) :
    (PackedTrait.read32WriteInt32.widen n).toInt = (n : Int).bmod (2 ^ 32) := by
  simp [PackedTrait.read32WriteInt32]

theorem widen64_eq (n : Nat) : PackedTrait.read64WriteInt64.widen n = Int64.ofInt n :=
  Int64.ofInt_eq_ofNat.symm

/-- Only an unsigned element of 32 bits may be reported as another number, and it is
when its top bit is set. -/
theorem widen_eq_iff {T : PackedType} {element : Bytes} (h : element.length = T.size) :
    T.trait.widen (readLittleEndian element) = Int64.ofInt (T.valueOf element) ↔
      (T = .uint32 → readLittleEndian element < 2 ^ 31) := by
  have hlt := readLittleEndian_lt element
  rw [h] at hlt
  unfold PackedType.valueOf
  generalize readLittleEndian element = n at hlt
  cases T with
  | uint32 =>
      simp only [PackedType.size, Nat.reducePow] at hlt
      have hvalue : (Int64.ofInt n).toInt = n := Int64.toInt_ofInt_of_le (by omega) (by omega)
      have hwiden : (PackedType.uint32.trait.widen n).toInt = (n : Int).bmod (2 ^ 32) :=
        toInt_widen32 n
      simp only [PackedType.signed, Bool.false_eq_true, if_false, true_imp_iff]
      rw [← Int64.toInt_inj, hvalue, hwiden, Int.bmod_def]
      omega
  | int32 =>
      have hvalue : (Int64.ofInt ((n : Int).bmod (2 ^ 32))).toInt = (n : Int).bmod (2 ^ 32) := by
        rw [Int64.toInt_ofInt_of_le]
        · rw [Int.bmod_def]; omega
        · rw [Int.bmod_def]; omega
      simp only [PackedType.signed, PackedType.size, if_true, reduceCtorEq, false_imp_iff,
        iff_true]
      rw [← Int64.toInt_inj, hvalue]
      exact toInt_widen32 n
  | uint64 =>
      simp only [PackedType.signed, Bool.false_eq_true, if_false, reduceCtorEq, false_imp_iff,
        iff_true]
      exact widen64_eq n
  | int64 =>
      have hvalue : Int64.ofInt ((n : Int).bmod (2 ^ 64)) = Int64.ofInt n := by
        refine Int64.toInt.inj ?_
        simp [Int64.size]
      simp only [PackedType.signed, PackedType.size, if_true, reduceCtorEq, false_imp_iff,
        iff_true]
      exact (widen64_eq n).trans hvalue.symm

theorem scalarEvent_inj {field : UInt64} {n m : Int64} :
    scalarEvent field n = scalarEvent field m ↔ n = m := by
  simp [scalarEvent]

/-- The check that records its events sees which they are. -/
theorem DecodesAsSchema.packedEvents_eq {T : PackedType} {body : ByteSpan}
    (h : DecodesAsSchema T body) (field : UInt64) :
    packedEvents T body field = schemaEvents T body field := by
  have hschema := h field _ recording [] recording_admitsAll
  have hactual := packedReturns_of_admitsAll recording_admitsAll T body field []
  have heq := (Prod.mk.inj (While.Returns.unique hactual hschema)).2
  simpa [feed_recording] using heq

/-- The elements are reported as the schema says just when none of them is an
unsigned element of 32 bits with its top bit set. -/
theorem decodesAsSchema_iff (T : PackedType) (body : ByteSpan) :
    DecodesAsSchema T body ↔
      (T = .uint32 → ∀ element ∈ packedElements T.size body,
        readLittleEndian element < 2 ^ 31) := by
  have hevents (field : UInt64) : packedEvents T body field = schemaEvents T body field ↔
      (T = .uint32 → ∀ element ∈ packedElements T.size body,
        readLittleEndian element < 2 ^ 31) := by
    rw [packedEvents, schemaEvents, kSize_eq_size, List.map_inj_left]
    constructor
    · intro h hT element helement
      have heq := scalarEvent_inj.mp (h element helement)
      exact (widen_eq_iff (length_of_mem_packedElements helement)).mp heq hT
    · intro h element helement
      rw [(widen_eq_iff (length_of_mem_packedElements helement)).mpr
        fun hT => h hT element helement]
  constructor
  · exact fun h => (hevents 0).mp (h.packedEvents_eq 0)
  · intro h field σ check s hcheck
    rw [← (hevents field).mpr h]
    exact packedReturns_of_admitsAll hcheck T body field s

/-- The element 2^31 of type `uint32_t` is reported as -2^31. -/
theorem uint32_topBit_not_decodesAsSchema :
    ¬ DecodesAsSchema .uint32 ⟨[0x00, 0x00, 0x00, 0x80], by decide⟩ := by
  intro h
  have heq := h.packedEvents_eq 0
  revert heq
  decide

end RpcSpec.Admission
