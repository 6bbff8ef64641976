import RpcSpec.Admission.PackedVarint
import RpcSpec.Admission.ProtobufWire
set_option autoImplicit false

/-!
# Where varints are read exactly

`readVarint` bounds its loop by the buffer only.  A tenth byte has one bit that still
fits the word; the others are shifted out.  An eleventh byte would be shifted by 70.
Everywhere else the value read is the value the bytes spell.
-/

namespace RpcSpec.Admission

open RpcSpec.Foundation
open RpcSpec.Foundation.Base128

/-- The bytes at `pos` start with a varint of at most ten bytes that spells `out`, a
64-bit value, and ends before `q`. -/
def FittingVarint (bytes : ByteSpan) (pos : Nat) (out : UInt64) (q : Nat) : Prop :=
  ∃ init last rest, bytes.bytes.drop pos = (init ++ [last]) ++ rest ∧
    Continues init ∧ last.toNat < 128 ∧ (init ++ [last]).length ≤ 10 ∧
    out.toNat = groupSum (init ++ [last]) ∧ q = pos + (init ++ [last]).length

theorem fittingVarint_iff {bytes : ByteSpan} {pos q : Nat} {out : UInt64} :
    FittingVarint bytes pos out q ↔ VarintAt bytes pos out.toNat q := by
  constructor
  · rintro ⟨init, last, rest, hdrop, hinit, hlast, hlen, hval, rfl⟩
    exact ⟨_, rest, hdrop, numeral_iff.mpr ⟨⟨init, last, rfl, hinit, hlast⟩, hval⟩, hlen, rfl⟩
  · rintro ⟨b, rest, hdrop, hnum, hlen, rfl⟩
    obtain ⟨⟨init, last, rfl, hinit, hlast⟩, hval⟩ := numeral_iff.mp hnum
    exact ⟨init, last, rest, hdrop, hinit, hlast, hlen, hval, rfl⟩

/-- A call of `readVarint` at `pos`, in each of the three places of the two visitors that
make one, reads what the bytes say or drops the message. -/
structure ReadsExactly (bytes : ByteSpan) (pos : Nat) : Prop where
  succeeds : ∀ out q, readVarint bytes pos = .ok out q ↔ FittingVarint bytes pos out q
  /-- no shift amount of 64 or more is evaluated -/
  defined : readVarint bytes pos ≠ .undefinedShift
  /-- a tag -/
  dropsTag : (∀ out q, readVarint bytes pos ≠ .ok out q) →
    ∀ (σ : Type) (check : Check σ) (s : σ) (options : ProtobufVisitorOptions),
      visitBody bytes check options ⟨pos, s⟩ = .ret (options.invalidPayload, s)
  /-- the value or the length behind a tag -/
  dropsBody : (∀ out q, readVarint bytes pos ≠ .ok out q) →
    ∀ (p : Nat) (tag : UInt64), readVarint bytes p = .ok tag pos → VarintFollows tag.toNat →
      ∀ (σ : Type) (check : Check σ) (s : σ) (options : ProtobufVisitorOptions),
        visitBody bytes check options ⟨p, s⟩ = .ret (options.invalidPayload, s)
  /-- an element of a packed field -/
  dropsElement : (∀ out q, readVarint bytes pos ≠ .ok out q) →
    ∀ (field : UInt64) (σ : Type) (check : Check σ) (s : σ) (options : ProtobufVisitorOptions),
      packedVarintBody bytes field check options ⟨pos, s⟩ = .ret (options.invalidPayload, s)

/-- A field without its varint is cut off. -/
theorem decodeField_of_truncatedBody {bytes : ByteSpan} {p pos : Nat} {tag : UInt64}
    (htag : readVarint bytes p = .ok tag pos) (hfollows : VarintFollows tag.toNat)
    (h : readVarint bytes pos = .truncated) : decodeField bytes p = .invalid := by
  have hwire : (tag &&& 7).toNat = tag.toNat % 8 :=
    wireType_toNat (Nat.mod_eq_of_lt tag.toNat_lt).symm
  unfold decodeField
  rw [htag]
  dsimp only
  rw [hwire]
  rcases hfollows with h0 | h2
  · rw [h0]
    simp [handleField, handleVarint, h]
  · rw [h2]
    simp [handleField, handleLen, h]

/-- The varints at `pos` that the reader takes for others, or for none: those of ten
bytes whose value takes more than 64 bits, and those that go on behind the tenth byte. -/
theorem readsExactly_iff (bytes : ByteSpan) (pos : Nat) :
    ReadsExactly bytes pos ↔
      (∀ v q, VarintAt bytes pos v q → v < 2 ^ 64) ∧ ¬ LongVarint bytes pos := by
  constructor
  · intro h
    refine ⟨fun v q hv => ?_, fun hlong => h.defined hlong.readVarint⟩
    obtain ⟨out, hout, -⟩ := hv.readVarint
    obtain ⟨rfl, -⟩ := hv.unique (fittingVarint_iff.mp ((h.succeeds out q).mp hout))
    exact out.toNat_lt
  · rintro ⟨hfits, hlong⟩
    have hdefined : readVarint bytes pos ≠ .undefinedShift := by
      rcases varint_cases bytes pos with ⟨v, q, hv⟩ | hcut | h
      · obtain ⟨out, hout, -⟩ := hv.readVarint
        simp [hout]
      · simp [hcut.readVarint]
      · exact absurd h hlong
    have htruncated : (∀ out q, readVarint bytes pos ≠ .ok out q) →
        readVarint bytes pos = .truncated := by
      intro hfails
      cases hread : readVarint bytes pos with
      | ok out q => exact absurd hread (hfails out q)
      | truncated => rfl
      | undefinedShift => exact absurd hread hdefined
    refine ⟨?_, hdefined, ?_, ?_, ?_⟩
    · intro out q
      rw [readVarint_ok_iff, fittingVarint_iff]
      constructor
      · rintro ⟨v, hv, hval⟩
        rwa [hval, Nat.mod_eq_of_lt (hfits v q hv)]
      · exact fun hv => ⟨_, hv, (Nat.mod_eq_of_lt out.toNat_lt).symm⟩
    · intro hfails σ check s options
      have hinvalid : decodeField bytes pos = .invalid := by
        simp [decodeField, htruncated hfails]
      simp [visitBody, hinvalid]
    · intro hfails p tag htag hfollows σ check s options
      have hinvalid := decodeField_of_truncatedBody htag hfollows (htruncated hfails)
      simp [visitBody, hinvalid]
    · intro hfails field σ check s options
      simp [packedVarintBody, htruncated hfails]

/-- Ten continuation bytes and an eleventh byte. -/
def elevenByteVarint : ByteSpan :=
  ⟨[0x80, 0x80, 0x80, 0x80, 0x80, 0x80, 0x80, 0x80, 0x80, 0x80, 0x01], by decide⟩

/-- The eleventh byte is shifted by 70. -/
theorem elevenByteVarint_not_readsExactly : ¬ ReadsExactly elevenByteVarint 0 := by
  intro h
  refine h.defined ?_
  decide

end RpcSpec.Admission
