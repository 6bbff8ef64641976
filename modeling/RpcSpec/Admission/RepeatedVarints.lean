import RpcSpec.Admission.Reading
import RpcSpec.Admission.ProtobufRoundTrip
set_option autoImplicit false

/-!
# Repeated varints, packed and not

A repeated field of varints may be sent packed, as one run of varints, or as a field for
each of them.  The two visitors read the same events from the two encodings, so no check
can tell them apart.
-/

namespace RpcSpec.Admission

open RpcSpec.Foundation
open RpcSpec.Foundation.Base128

variable {σ : Type}

/-- The payload of the packed field. -/
def packVarints (values : List UInt64) : Bytes := values.flatMap fun value => encode value.toNat

/-- The values as fields of one number. -/
def repeatVarints (number : FieldNumber) (values : List UInt64) : MessageTree :=
  values.foldr (fun value rest => .cons number (.varint value) rest) .nil

/-- One event a value. -/
def varintEvents (number : FieldNumber) (values : List UInt64) : List VisitEvent :=
  values.map fun value => scalarEvent number.toUInt64 value.toInt64

theorem packVarints_cons (value : UInt64) (values : List UInt64) :
    packVarints (value :: values) = encode value.toNat ++ packVarints values := rfl

theorem encode_repeatVarints_cons (number : FieldNumber) (value : UInt64) (values : List UInt64) :
    (repeatVarints number (value :: values)).encode =
      encode (tagValue number (.varint value)) ++
        (encode value.toNat ++ (repeatVarints number values).encode) := by
  rw [repeatVarints, List.foldr_cons, MessageTree.encode, FieldBody.encodeBody]
  rfl

/-! ## Reading the two encodings -/

/-- The packed run at `p`, and what stands behind it. -/
theorem reads_packVarints {body : ByteSpan} (number : FieldNumber) {tail : Bytes}
    (values : List UInt64) {p : Nat} (hdrop : body.bytes.drop p = packVarints values ++ tail) :
    ∃ q, (packedVarintReader body number.toUInt64).Reads p (varintEvents number values) q ∧
      body.bytes.drop q = tail := by
  induction values generalizing p with
  | nil => exact ⟨p, .here p, hdrop⟩
  | cons value values ih =>
      rw [packVarints_cons, List.append_assoc] at hdrop
      have hlt := (encode_at value.toNat_lt hdrop).lt
      obtain ⟨q, hreads, htail⟩ := ih (drop_add_of_drop hdrop)
      refine ⟨q, .event (decide_eq_true ?_) (handleVarint_encoded _ hdrop) hreads, htail⟩
      omega

/-- The fields at `p`, and what stands behind them. -/
theorem reads_repeatVarints {bytes : ByteSpan} (number : FieldNumber) {tail : Bytes}
    (values : List UInt64) {p : Nat}
    (hdrop : bytes.bytes.drop p = (repeatVarints number values).encode ++ tail) :
    ∃ q, (messageReader bytes).Reads p (varintEvents number values) q ∧
      bytes.bytes.drop q = tail := by
  induction values generalizing p with
  | nil => exact ⟨p, .here p, by simpa [repeatVarints, MessageTree.encode] using hdrop⟩
  | cons value values ih =>
      rw [encode_repeatVarints_cons, List.append_assoc, List.append_assoc] at hdrop
      have hlt := (encode_at (tagValue_lt number (.varint value)) hdrop).lt
      have hvalue := drop_add_of_drop hdrop
      obtain ⟨q, hreads, htail⟩ := ih (drop_add_of_drop hvalue)
      refine ⟨q, .event (decide_eq_true ?_) ?_ hreads, htail⟩
      · omega
      · exact (decodeField_of_encodedTag hdrop).trans (handleVarint_encoded _ hvalue)

/-! ## The ends of the two encodings -/

/-- What is left of a varint announces another byte. -/
theorem continues_of_cut {b kept cut : Bytes} {v : Nat} (h : Numeral b v) (hb : b = kept ++ cut)
    (hcut : cut ≠ []) : Continues kept := by
  obtain ⟨init, last, rfl, hinit, -⟩ := h.split
  obtain ⟨cut, final, rfl⟩ := List.eq_nil_or_concat cut |>.resolve_left hcut
  rw [List.concat_eq_append, ← List.append_assoc, List.append_singleton_inj] at hb
  exact fun byte hbyte => hinit byte (hb.1 ▸ List.mem_append_left cut hbyte)

/-- The varint at `p` is what is left of an encoded one. -/
theorem cutVarint_of_cut {bytes : ByteSpan} {p : Nat} {value : UInt64} {kept cut : Bytes}
    (hdrop : bytes.bytes.drop p = kept) (hvalue : encode value.toNat = kept ++ cut)
    (hcut : cut ≠ []) : CutVarint bytes p := by
  have hlen := encode_length_le_ten value.toNat_lt
  rw [hvalue, List.length_append] at hlen
  rw [CutVarint, hdrop]
  exact ⟨continues_of_cut (encode_numeral _) hvalue hcut, by omega⟩

theorem lt_size_of_drop {bytes : ByteSpan} {p : Nat} (h : bytes.bytes.drop p ≠ []) :
    p < bytes.size := by
  by_contra hle
  exact h (List.drop_eq_nil_of_le (by simpa [ByteSpan.size] using hle))

theorem size_le_of_drop {bytes : ByteSpan} {p : Nat} (h : bytes.bytes.drop p = []) :
    bytes.size ≤ p := List.drop_eq_nil_iff.mp h

section Ends

variable (check : Check σ) (options : ProtobufVisitorOptions)

theorem packed_returns_end {body : ByteSpan} {p : Nat} (field : UInt64)
    (hdrop : body.bytes.drop p = []) (s : σ) :
    ((packedVarintReader body field).loop check options).Returns ⟨p, s⟩ (.admit_ 0, s) :=
  While.returns_of_guard_false (decide_eq_false (Nat.not_lt.mpr (size_le_of_drop hdrop)))

theorem message_returns_end {bytes : ByteSpan} {p : Nat} (hdrop : bytes.bytes.drop p = [])
    (s : σ) : ((messageReader bytes).loop check options).Returns ⟨p, s⟩ (.admit_ 0, s) :=
  While.returns_of_guard_false (decide_eq_false (Nat.not_lt.mpr (size_le_of_drop hdrop)))

theorem packed_returns_cut {body : ByteSpan} {p : Nat} (field : UInt64)
    (hne : body.bytes.drop p ≠ []) (hcut : CutVarint body p) (s : σ) :
    ((packedVarintReader body field).loop check options).Returns ⟨p, s⟩
      (options.invalidPayload, s) := by
  refine While.returns_of_ret (decide_eq_true (lt_size_of_drop hne)) ?_
  simp [Reader.loop, packedVarintReader, handleVarint, hcut.readVarint]

theorem message_returns_cut {bytes : ByteSpan} {p : Nat} (hne : bytes.bytes.drop p ≠ [])
    (hcut : CutField bytes p) (s : σ) :
    ((messageReader bytes).loop check options).Returns ⟨p, s⟩ (options.invalidPayload, s) := by
  refine While.returns_of_ret (decide_eq_true (lt_size_of_drop hne)) ?_
  simp [Reader.loop, messageReader, hcut.decodeField]

end Ends

/-! ## No check tells the two apart -/

/-- Every check is called on the same events, ends in the same state and has the same
decision returned; and also where the last varint of both has lost its last bytes.  The
decision is then the drop of an invalid payload, unless the check has dropped before. -/
theorem packed_repeated_alike (number : FieldNumber) (check : Check σ) (s : σ)
    (options : ProtobufVisitorOptions) :
    (∀ (values : List UInt64) (packed repeated : ByteSpan),
      packed.bytes = packVarints values → repeated.bytes = (repeatVarints number values).encode →
      ∃ result,
        PackedVarintReturns packed number.toUInt64 (observed check) (s, []) options result ∧
        VisitReturns repeated (observed check) (s, []) options result) ∧
    (∀ (values : List UInt64) (last : UInt64) (kept cut : Bytes) (packed repeated : ByteSpan),
      encode last.toNat = kept ++ cut → kept ≠ [] → cut ≠ [] →
      packed.bytes = packVarints values ++ kept →
      repeated.bytes = (repeatVarints number values).encode ++
        (encode (tagValue number (.varint last)) ++ kept) →
      ∃ result,
        PackedVarintReturns packed number.toUInt64 (observed check) (s, []) options result ∧
        VisitReturns repeated (observed check) (s, []) options result ∧
        result.1 = (offerAll (observed check) (s, []) (varintEvents number values)).1.getD
          options.invalidPayload) := by
  simp only [PackedVarintReturns, VisitReturns, packedVarintLoop_eq, visitLoop_eq]
  constructor
  · intro values packed repeated hpacked hrepeated
    have hdrop : packed.bytes.drop 0 = packVarints values ++ [] := by simpa using hpacked
    have hdrop' : repeated.bytes.drop 0 = (repeatVarints number values).encode ++ [] := by
      simpa using hrepeated
    obtain ⟨q, hreads, hq⟩ := reads_packVarints number values hdrop
    obtain ⟨r, hreads', hr⟩ := reads_repeatVarints number values hdrop'
    exact ⟨_, hreads.returns (packed_returns_end _ options _ hq) _,
      hreads'.returns (message_returns_end _ options hr) _⟩
  · intro values last kept cut packed repeated hlast hkept hcut hpacked hrepeated
    have hdrop : packed.bytes.drop 0 = packVarints values ++ kept := hpacked
    have hdrop' : repeated.bytes.drop 0 = (repeatVarints number values).encode ++ _ := hrepeated
    obtain ⟨q, hreads, hq⟩ := reads_packVarints number values hdrop
    obtain ⟨r, hreads', hr⟩ := reads_repeatVarints number values hdrop'
    have htag := encode_at (tagValue_lt number (.varint last)) hr
    have hfield : CutField repeated r := by
      refine .varint htag (.inl (tagValue_mod number _)) ?_
      exact cutVarint_of_cut (drop_add_of_drop hr) hlast hcut
    exact ⟨_, hreads.returns (packed_returns_cut _ options _ (hq ▸ hkept)
        (cutVarint_of_cut hq hlast hcut)) _,
      hreads'.returns (message_returns_cut _ options (by simp [hr, hkept]) hfield) _, rfl⟩

/-- The values 1 and 300, the last byte cut off. -/
def cutPacked : ByteSpan := ⟨[0x01, 0xAC], by decide⟩

/-- The values 1 and 300 of field 1, the last byte cut off. -/
def cutRepeated : ByteSpan := ⟨[0x08, 0x01, 0x08, 0xAC], by decide⟩

theorem cutPacked_cutRepeated_alike : ∃ result,
    PackedVarintReturns cutPacked 1 (observed recording) ([], []) {} result ∧
    VisitReturns cutRepeated (observed recording) ([], []) {} result ∧
    result.1 = (offerAll (observed recording) ([], []) [scalarEvent 1 1]).1.getD
      ({} : ProtobufVisitorOptions).invalidPayload := by
  have hone : encode 1 = [0x01] := by rw [encode]; rfl
  have htag : encode 8 = [0x08] := by rw [encode]; rfl
  have hcut : encode 300 = [0xAC] ++ [0x02] := by rw [encode, encode]; rfl
  refine (packed_repeated_alike ⟨1, by decide⟩ recording [] {}).2 [1] 300 [0xAC] [0x02] cutPacked
    cutRepeated hcut (by decide) (by decide) ?_ ?_
  · show [0x01, 0xAC] = (encode 1 ++ []) ++ [0xAC]
    rw [hone]
    rfl
  · rw [encode_repeatVarints_cons]
    show [0x08, 0x01, 0x08, 0xAC] = (encode 8 ++ (encode 1 ++ MessageTree.nil.encode)) ++
      (encode 8 ++ [0xAC])
    rw [hone, htag, MessageTree.encode]
    rfl

/-- It drops every event for a reason of its own. -/
def refusing : Check Unit := fun s _ => (.drop "refused" 1, s)

/-- Of an encoding that is cut off the check may drop an event before the cut. -/
theorem cutPacked_not_invalid :
    ¬ PackedVarintReturns cutPacked 1 refusing () {}
      (({} : ProtobufVisitorOptions).invalidPayload, ()) := by
  intro h
  have hrefused : PackedVarintReturns cutPacked 1 refusing () {} (.drop "refused" 1, ()) :=
    While.returns_of_ret (by decide) (by decide)
  exact absurd (While.Returns.unique h hrefused) (by decide)

end RpcSpec.Admission
