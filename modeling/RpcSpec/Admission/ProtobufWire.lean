import RpcSpec.Admission.ProtobufVisitor
import RpcSpec.Foundation.Base128
set_option autoImplicit false

/-!
# What the protobuf reader sees at a position

The reader of `ProtobufVisitor` described on the bytes alone: which numeral
stands at a position, which field, and where the next one starts.  Later modules
argue about fields and positions and use only the lemmas of this one about the
code.
-/

namespace RpcSpec.Admission

open RpcSpec.Foundation
open RpcSpec.Foundation.Base128

/-! ## Varints at a position -/

/-- A numeral of at most ten bytes and value `v` stands at `p` and ends before
`q`. -/
def VarintAt (bytes : ByteSpan) (p v q : Nat) : Prop :=
  ∃ b rest, bytes.bytes.drop p = b ++ rest ∧ Numeral b v ∧ b.length ≤ 10 ∧
    q = p + b.length

/-- The bytes end inside the numeral at `p`, before an eleventh byte. -/
def CutVarint (bytes : ByteSpan) (p : Nat) : Prop :=
  Continues (bytes.bytes.drop p) ∧ (bytes.bytes.drop p).length ≤ 10

/-- The numeral at `p` goes on to an eleventh byte. -/
def LongVarint (bytes : ByteSpan) (p : Nat) : Prop :=
  ∃ b rest, bytes.bytes.drop p = b ++ rest ∧ Continues b ∧ b.length = 10 ∧ rest ≠ []

theorem VarintAt.lt {bytes : ByteSpan} {p v q : Nat} (h : VarintAt bytes p v q) :
    p < q ∧ q ≤ bytes.size := by
  obtain ⟨b, rest, hdrop, hnum, _, rfl⟩ := h
  have hpos := hnum.length_pos
  have hlen := congrArg List.length hdrop
  simp only [List.length_drop, List.length_append] at hlen
  simp only [ByteSpan.size]
  omega

theorem VarintAt.unique {bytes : ByteSpan} {p v v' q q' : Nat}
    (h : VarintAt bytes p v q) (h' : VarintAt bytes p v' q') : v = v' ∧ q = q' := by
  obtain ⟨b, rest, hdrop, hnum, _, rfl⟩ := h
  obtain ⟨b', rest', hdrop', hnum', _, rfl⟩ := h'
  obtain ⟨rfl, rfl, _⟩ := hnum.prefixFree hnum' (hdrop.symm.trans hdrop')
  exact ⟨rfl, rfl⟩

/-- At every position one of the three stands. -/
theorem varint_cases (bytes : ByteSpan) (p : Nat) :
    (∃ v q, VarintAt bytes p v q) ∨ CutVarint bytes p ∨ LongVarint bytes p := by
  cases numeral_or_continues (bytes.bytes.drop p) with
  | inl h =>
      obtain ⟨b, v, rest, hdrop, hnum⟩ := h
      by_cases hlen : b.length ≤ 10
      · exact .inl ⟨v, _, b, rest, hdrop, hnum, hlen, rfl⟩
      · obtain ⟨init, last, rfl, hinit, _⟩ := hnum.split
        simp only [List.length_append, List.length_singleton] at hlen
        refine .inr (.inr ⟨init.take 10, init.drop 10 ++ [last] ++ rest, ?_, ?_, ?_, ?_⟩)
        · rw [hdrop, ← List.append_assoc, ← List.append_assoc, List.take_append_drop]
        · exact fun b hb => hinit b (List.mem_of_mem_take hb)
        · rw [List.length_take]
          omega
        · simp
  | inr h =>
      by_cases hlen : (bytes.bytes.drop p).length ≤ 10
      · exact .inr (.inl ⟨h, hlen⟩)
      · refine .inr (.inr ⟨(bytes.bytes.drop p).take 10, (bytes.bytes.drop p).drop 10,
          (List.take_append_drop _ _).symm, fun b hb => h b (List.mem_of_mem_take hb), ?_, ?_⟩)
        · rw [List.length_take]
          omega
        · rw [← List.length_pos_iff, List.length_drop]
          omega

/-! ## `readVarint`

The induction is on the numeral; the invariant is that after `k` groups the
accumulator is below `2 ^ (7 * k)`. -/

theorem readVarintLoop_numeral {b : Bytes} {v : Nat} (h : Numeral b v) :
    ∀ (k pos : Nat) (acc : UInt64) (rest : Bytes), k + b.length ≤ 10 →
      acc.toNat < 2 ^ (7 * k) →
      ∃ out, readVarintLoop (b ++ rest) pos acc (7 * k) = .ok out (pos + b.length) ∧
        out.toNat = (acc.toNat + v * 2 ^ (7 * k)) % 2 ^ 64 := by
  induction h with
  | last b hb =>
      intro k pos acc rest hk hacc
      simp only [List.length_singleton] at hk
      have hstop : b &&& 0x80 = 0 := (and_128_eq_zero_iff b).mpr hb
      have hsum := accumulate_toNat (b := b) (s := 7 * k) (by omega) hacc
      rw [Nat.mod_eq_of_lt hb] at hsum
      refine ⟨_, ?_, hsum⟩
      simp [readVarintLoop, hstop, show ¬ 64 ≤ 7 * k by omega]
  | @more b bs v hb hnum ih =>
      intro k pos acc rest hk hacc
      have hpos := hnum.length_pos
      simp only [List.length_cons] at hk
      have hgo : ¬ b &&& 0x80 = 0 := by
        rw [and_128_eq_zero_iff]
        omega
      have hsum := accumulate_toNat (b := b) (s := 7 * k) (by omega) hacc
      -- at most nine groups so far, so the new accumulator does not wrap
      have hsplit : (2 : Nat) ^ (7 * (k + 1)) = 2 ^ (7 * k) * 128 := by
        rw [Nat.mul_add, Nat.pow_add]
      have hgroup : b.toNat % 128 * 2 ^ (7 * k) ≤ 127 * 2 ^ (7 * k) :=
        Nat.mul_le_mul_right _ (by omega)
      have hword : (2 : Nat) ^ (7 * (k + 1)) ≤ 2 ^ 63 :=
        Nat.pow_le_pow_right (by decide) (by omega)
      have hnowrap : acc.toNat + b.toNat % 128 * 2 ^ (7 * k) < 2 ^ 64 := by omega
      rw [Nat.mod_eq_of_lt hnowrap] at hsum
      obtain ⟨out, hout, hval⟩ := ih (k + 1) (pos + 1)
        (acc ||| ((b &&& 0x7F).toUInt64 <<< UInt64.ofNat (7 * k))) rest (by omega)
        (by omega)
      refine ⟨out, ?_, ?_⟩
      · simp only [List.cons_append, readVarintLoop, show ¬ 64 ≤ 7 * k by omega, hgo,
          if_false]
        rw [show 7 * k + 7 = 7 * (k + 1) by omega, hout, List.length_cons]
        congr 1
        omega
      · have hbyte := b.toNat_lt
        have hlow : b.toNat - 128 = b.toNat % 128 := by omega
        rw [hval, hsum, hsplit, hlow, Nat.add_mul, ← Nat.add_assoc, Nat.mul_comm 128 v,
          Nat.mul_assoc, Nat.mul_comm 128]

theorem readVarintLoop_continues {b : Bytes} (h : Continues b) :
    ∀ (k pos : Nat) (acc : UInt64), k + b.length ≤ 10 →
      readVarintLoop b pos acc (7 * k) = .truncated := by
  induction b with
  | nil => intros; rfl
  | cons b bs ih =>
      intro k pos acc hk
      obtain ⟨hb, hbs⟩ := continues_cons.mp h
      simp only [List.length_cons] at hk
      have hgo : ¬ b &&& 0x80 = 0 := by
        rw [and_128_eq_zero_iff]
        omega
      simp only [readVarintLoop, show ¬ 64 ≤ 7 * k by omega, hgo, if_false]
      exact ih hbs (k + 1) _ _ (by omega)

theorem readVarintLoop_long {b rest : Bytes} (h : Continues b) (hrest : rest ≠ []) :
    ∀ (k pos : Nat) (acc : UInt64), k + b.length = 10 →
      readVarintLoop (b ++ rest) pos acc (7 * k) = .undefinedShift := by
  induction b with
  | nil =>
      intro k pos acc hk
      cases rest with
      | nil => exact absurd rfl hrest
      | cons b bs =>
          simp only [List.length_nil] at hk
          simp [readVarintLoop, show 64 ≤ 7 * k by omega]
  | cons b bs ih =>
      intro k pos acc hk
      obtain ⟨hb, hbs⟩ := continues_cons.mp h
      simp only [List.length_cons] at hk
      have hgo : ¬ b &&& 0x80 = 0 := by
        rw [and_128_eq_zero_iff]
        omega
      simp only [List.cons_append, readVarintLoop, show ¬ 64 ≤ 7 * k by omega, hgo, if_false]
      exact ih hbs (k + 1) _ _ (by omega)

/-- On a numeral of at most ten bytes `readVarint` yields its value modulo
`2 ^ 64`. -/
theorem VarintAt.readVarint {bytes : ByteSpan} {p v q : Nat} (h : VarintAt bytes p v q) :
    ∃ out, readVarint bytes p = .ok out q ∧ out.toNat = v % 2 ^ 64 := by
  obtain ⟨b, rest, hdrop, hnum, hlen, rfl⟩ := h
  obtain ⟨out, hout, hval⟩ := readVarintLoop_numeral hnum 0 p 0 rest (by omega) (by simp)
  refine ⟨out, ?_, by simpa using hval⟩
  simpa [Admission.readVarint, hdrop] using hout

theorem CutVarint.readVarint {bytes : ByteSpan} {p : Nat} (h : CutVarint bytes p) :
    readVarint bytes p = .truncated :=
  readVarintLoop_continues h.1 0 p 0 (by simpa using h.2)

theorem LongVarint.readVarint {bytes : ByteSpan} {p : Nat} (h : LongVarint bytes p) :
    readVarint bytes p = .undefinedShift := by
  obtain ⟨b, rest, hdrop, hcont, hlen, hrest⟩ := h
  have := readVarintLoop_long hcont hrest 0 p 0 (by omega)
  simpa [Admission.readVarint, hdrop] using this

theorem readVarint_ok_iff {bytes : ByteSpan} {p q : Nat} {out : UInt64} :
    readVarint bytes p = .ok out q ↔
      ∃ v, VarintAt bytes p v q ∧ out.toNat = v % 2 ^ 64 := by
  constructor
  · intro h
    rcases varint_cases bytes p with ⟨v, q', hv⟩ | hcut | hlong
    · obtain ⟨out', hout, hval⟩ := hv.readVarint
      rw [h] at hout
      cases hout
      exact ⟨v, hv, hval⟩
    · rw [hcut.readVarint] at h
      cases h
    · rw [hlong.readVarint] at h
      cases h
  · rintro ⟨v, hv, hval⟩
    obtain ⟨out', hout, hval'⟩ := hv.readVarint
    rw [hout, UInt64.toNat_inj.mp (hval.trans hval'.symm)]

theorem readVarint_pos {bytes : ByteSpan} {p q : Nat} {out : UInt64}
    (h : readVarint bytes p = .ok out q) : p < q ∧ q ≤ bytes.size := by
  obtain ⟨v, hv, _⟩ := readVarint_ok_iff.mp h
  exact hv.lt

/-! ## Fields at a position -/

/-- Width of the body of the fixed-size wire types. -/
def fixedWidth : Nat → Option Nat
  | 1 => some 8
  | 5 => some 4
  | _ => none

/-- The wire type the tag value `tag` names is none the switch has a case for. -/
def NoCase (tag : Nat) : Prop := tag % 8 = 3 ∨ tag % 8 = 4 ∨ tag % 8 = 6 ∨ tag % 8 = 7

instance (tag : Nat) : Decidable (NoCase tag) := inferInstanceAs (Decidable (_ ∨ _))

/-- A varint follows a tag of this wire type. -/
def VarintFollows (tag : Nat) : Prop := tag % 8 = 0 ∨ tag % 8 = 2

/-- The visitor steps from the field at `p` to one at `q`: it skips the body a
supported wire type announces, taking the end of a length-delimited body modulo
`2 ^ 64`, and nothing but the tag of any other wire type. -/
inductive WireStep (bytes : ByteSpan) (p : Nat) : Nat → Prop
  | varint {tag q v r : Nat} : VarintAt bytes p tag q → tag % 8 = 0 →
      VarintAt bytes q v r → WireStep bytes p r
  | fixed {tag q width : Nat} : VarintAt bytes p tag q →
      fixedWidth (tag % 8) = some width → q + width ≤ bytes.size →
      WireStep bytes p (q + width)
  | len {tag q len r : Nat} : VarintAt bytes p tag q → tag % 8 = 2 →
      VarintAt bytes q len r → (r + len) % 2 ^ 64 ≤ bytes.size →
      WireStep bytes p ((r + len) % 2 ^ 64)
  | noCase {tag q : Nat} : VarintAt bytes p tag q → NoCase tag → WireStep bytes p q

/-- The bytes end inside the field at `p`: in its tag, in the varint after the
tag, or in its body. -/
inductive CutField (bytes : ByteSpan) (p : Nat) : Prop
  | tag : CutVarint bytes p → CutField bytes p
  | varint {tag q : Nat} : VarintAt bytes p tag q → VarintFollows tag →
      CutVarint bytes q → CutField bytes p
  | fixed {tag q width : Nat} : VarintAt bytes p tag q →
      fixedWidth (tag % 8) = some width → bytes.size < q + width → CutField bytes p
  | body {tag q len r : Nat} : VarintAt bytes p tag q → tag % 8 = 2 →
      VarintAt bytes q len r → bytes.size < (r + len) % 2 ^ 64 → CutField bytes p

/-- A varint of the field at `p` goes on to an eleventh byte. -/
inductive LongField (bytes : ByteSpan) (p : Nat) : Prop
  | tag : LongVarint bytes p → LongField bytes p
  | varint {tag q : Nat} : VarintAt bytes p tag q → VarintFollows tag →
      LongVarint bytes q → LongField bytes p

theorem wireType_cases (tag : Nat) :
    tag % 8 = 0 ∨ tag % 8 = 2 ∨ (∃ width, fixedWidth (tag % 8) = some width) ∨
      NoCase tag := by
  have hcases : tag % 8 = 0 ∨ tag % 8 = 1 ∨ tag % 8 = 2 ∨ tag % 8 = 5 ∨ NoCase tag := by
    unfold NoCase
    omega
  rcases hcases with h | h | h | h | h
  · exact .inl h
  · exact .inr (.inr (.inl ⟨8, by rw [h]; rfl⟩))
  · exact .inr (.inl h)
  · exact .inr (.inr (.inl ⟨4, by rw [h]; rfl⟩))
  · exact .inr (.inr (.inr h))

/-- Every position has one of the three kinds of field. -/
theorem field_cases (bytes : ByteSpan) (p : Nat) :
    (∃ q, WireStep bytes p q) ∨ CutField bytes p ∨ LongField bytes p := by
  rcases varint_cases bytes p with ⟨tag, q, htag⟩ | hcut | hlong
  · rcases wireType_cases tag with h0 | h2 | ⟨width, hw⟩ | hno
    · rcases varint_cases bytes q with ⟨v, r, hv⟩ | hcut | hlong
      · exact .inl ⟨r, .varint htag h0 hv⟩
      · exact .inr (.inl (.varint htag (.inl h0) hcut))
      · exact .inr (.inr (.varint htag (.inl h0) hlong))
    · rcases varint_cases bytes q with ⟨len, r, hlen⟩ | hcut | hlong
      · by_cases hfit : (r + len) % 2 ^ 64 ≤ bytes.size
        · exact .inl ⟨_, .len htag h2 hlen hfit⟩
        · exact .inr (.inl (.body htag h2 hlen (by omega)))
      · exact .inr (.inl (.varint htag (.inr h2) hcut))
      · exact .inr (.inr (.varint htag (.inr h2) hlong))
    · by_cases hfit : q + width ≤ bytes.size
      · exact .inl ⟨_, .fixed htag hw hfit⟩
      · exact .inr (.inl (.fixed htag hw (by omega)))
    · exact .inl ⟨q, .noCase htag hno⟩
  · exact .inr (.inl (.tag hcut))
  · exact .inr (.inr (.tag hlong))

/-! ## `decodeField` -/

/-- The wire type `decodeField` switches on is that of the tag's value. -/
theorem wireType_toNat {tag : UInt64} {v : Nat} (h : tag.toNat = v % 2 ^ 64) :
    (tag &&& 7).toNat = v % 8 := by
  rw [UInt64.toNat_and]
  have hand : tag.toNat &&& 7 = tag.toNat % 8 := Nat.and_two_pow_sub_one_eq_mod tag.toNat 3
  simp only [UInt64.toNat_ofNat]
  rw [hand, h]
  omega

/-- `decodeField` reads the tag and goes on as its wire type says. -/
theorem decodeField_of_tag {bytes : ByteSpan} {p v q : Nat} (h : VarintAt bytes p v q) :
    ∃ tag : UInt64, readVarint bytes p = .ok tag q ∧ tag.toNat = v % 2 ^ 64 ∧
      decodeField bytes p = handleField bytes q (tag >>> 3) (v % 8) := by
  obtain ⟨tag, htag, hval⟩ := h.readVarint
  exact ⟨tag, htag, hval, by rw [decodeField, htag]; simp only [wireType_toNat hval]⟩

theorem handleField_fixed {bytes : ByteSpan} {wireType width : Nat}
    (h : fixedWidth wireType = some width) (pos : Nat) (field : UInt64) :
    handleField bytes pos field wireType = handleInt bytes pos field width := by
  unfold fixedWidth at h
  split at h <;> simp_all [handleField]

theorem fixedWidth_eq {wireType width : Nat} (h : fixedWidth wireType = some width) :
    width = 8 ∨ width = 4 := by
  unfold fixedWidth at h
  split at h
  · exact .inl (Option.some.inj h).symm
  · exact .inr (Option.some.inj h).symm
  · cases h

theorem fixedWidth_le {wireType width : Nat} (h : fixedWidth wireType = some width) :
    width ≤ 8 := by
  have := fixedWidth_eq h
  omega

theorem fixedWidth_pos {wireType width : Nat} (h : fixedWidth wireType = some width) :
    0 < width := by
  have := fixedWidth_eq h
  omega

theorem handleField_noCase {tag : Nat} (h : NoCase tag) (bytes : ByteSpan) (pos : Nat)
    (field : UInt64) : handleField bytes pos field (tag % 8) = .noCase pos := by
  rcases h with h | h | h | h <;> rw [h] <;> rfl

/-- Inside a span the end of a fixed-size body does not wrap. -/
theorem sizeAdd_fixed {bytes : ByteSpan} {pos width : Nat} (hpos : pos ≤ bytes.size)
    (hwidth : width ≤ 8) : sizeAdd pos width = pos + width := by
  have hsize : bytes.size < 2 ^ 63 := bytes.size_lt
  exact Nat.mod_eq_of_lt (by omega)

theorem sizeAdd_toNat {len : UInt64} {r v : Nat} (h : len.toNat = v % 2 ^ 64) :
    sizeAdd r len.toNat = (r + v) % 2 ^ 64 := by
  rw [sizeAdd, h, Nat.add_mod_mod]

/-- A fixed-size body that fits. -/
theorem handleInt_of_fits {bytes : ByteSpan} {pos width : Nat} (hwidth : width ≤ 8)
    (hfit : pos + width ≤ bytes.size) (field : UInt64) :
    handleInt bytes pos field width =
      .event (scalarEvent field (UInt64.ofNat
        (readLittleEndian ((bytes.bytes.drop pos).take width))).toInt64) (pos + width) := by
  have hpos : pos ≤ bytes.size := by omega
  rw [handleInt, sizeAdd_fixed hpos hwidth, if_neg (by omega)]

/-- A fixed-size body that is cut off. -/
theorem handleInt_of_cut {bytes : ByteSpan} {pos width : Nat} (hwidth : width ≤ 8)
    (hpos : pos ≤ bytes.size) (hcut : bytes.size < pos + width) (field : UInt64) :
    handleInt bytes pos field width = .invalid := by
  rw [handleInt, sizeAdd_fixed hpos hwidth, if_pos (by omega)]

/-- A length whose body ends, modulo `2 ^ 64`, inside the span. -/
theorem handleLen_of_fits {bytes : ByteSpan} {pos r : Nat} {len : UInt64}
    (hlen : readVarint bytes pos = .ok len r)
    (hfit : sizeAdd r len.toNat ≤ bytes.size) (field : UInt64) :
    handleLen bytes pos field =
      .event (bytesEvent field (bytes.subspan r len.toNat)) (sizeAdd r len.toNat) := by
  simp only [handleLen, hlen]
  rw [if_neg (by omega)]

/-- Where the visitor steps over a field, `decodeField` yields an event or finds
no case, and the position of the next field. -/
theorem WireStep.decodeField {bytes : ByteSpan} {p q : Nat} (h : WireStep bytes p q) :
    (∃ event, decodeField bytes p = .event event q) ∨ decodeField bytes p = .noCase q := by
  cases h with
  | varint htag h0 hv =>
      obtain ⟨tag, _, _, hdecode⟩ := decodeField_of_tag htag
      obtain ⟨out, hout, _⟩ := hv.readVarint
      exact .inl ⟨scalarEvent (tag >>> 3) out.toInt64,
        by rw [hdecode, h0]; simp [handleField, handleVarint, hout]⟩
  | fixed htag hw hfit =>
      obtain ⟨tag, _, _, hdecode⟩ := decodeField_of_tag htag
      have hint := handleInt_of_fits (fixedWidth_le hw) hfit (tag >>> 3)
      exact .inl ⟨_, by rw [hdecode, handleField_fixed hw, hint]⟩
  | len htag h2 hlen hfit =>
      obtain ⟨tag, _, _, hdecode⟩ := decodeField_of_tag htag
      obtain ⟨out, hout, hval⟩ := hlen.readVarint
      rw [← sizeAdd_toNat hval] at hfit ⊢
      exact .inl ⟨_, by rw [hdecode, h2, handleField, handleLen_of_fits hout hfit]⟩
  | noCase htag hno =>
      obtain ⟨tag, _, _, hdecode⟩ := decodeField_of_tag htag
      exact .inr (by rw [hdecode, handleField_noCase hno])

theorem CutField.decodeField {bytes : ByteSpan} {p : Nat} (h : CutField bytes p) :
    decodeField bytes p = .invalid := by
  cases h with
  | tag hcut => simp [Admission.decodeField, hcut.readVarint]
  | varint htag hfollows hcut =>
      obtain ⟨tag, _, _, hdecode⟩ := decodeField_of_tag htag
      rcases hfollows with h0 | h2
      · rw [hdecode, h0]
        simp [handleField, handleVarint, hcut.readVarint]
      · rw [hdecode, h2]
        simp [handleField, handleLen, hcut.readVarint]
  | fixed htag hw hcut =>
      obtain ⟨tag, _, _, hdecode⟩ := decodeField_of_tag htag
      rw [hdecode, handleField_fixed hw, handleInt_of_cut (fixedWidth_le hw) htag.lt.2 hcut]
  | body htag h2 hlen hcut =>
      obtain ⟨tag, _, _, hdecode⟩ := decodeField_of_tag htag
      obtain ⟨out, hout, hval⟩ := hlen.readVarint
      rw [hdecode, h2]
      simp only [handleField, handleLen, hout]
      rw [sizeAdd_toNat hval, if_pos (by omega)]

theorem LongField.decodeField {bytes : ByteSpan} {p : Nat} (h : LongField bytes p) :
    decodeField bytes p = .undefined := by
  cases h with
  | tag hlong => simp [Admission.decodeField, hlong.readVarint]
  | varint htag hfollows hlong =>
      obtain ⟨tag, _, _, hdecode⟩ := decodeField_of_tag htag
      rcases hfollows with h0 | h2
      · rw [hdecode, h0]
        simp [handleField, handleVarint, hlong.readVarint]
      · rw [hdecode, h2]
        simp [handleField, handleLen, hlong.readVarint]

theorem decodeField_undefined_iff {bytes : ByteSpan} {p : Nat} :
    decodeField bytes p = .undefined ↔ LongField bytes p := by
  refine ⟨?_, LongField.decodeField⟩
  intro h
  rcases field_cases bytes p with ⟨q, hstep⟩ | hcut | hlong
  · rcases hstep.decodeField with ⟨event, he⟩ | hno
    · rw [h] at he
      cases he
    · rw [h] at hno
      cases hno
  · rw [hcut.decodeField] at h
    cases h
  · exact hlong

end RpcSpec.Admission
