import RpcSpec.Admission.ProtobufGrammar
set_option autoImplicit false

/-!
# Encoding a message tree and visiting the bytes

A message tree is a list of numbered fields whose bodies are integers, raw bytes
or messages again.  `MessageTree.encode` writes the standard encoding: shortest
varints, little-endian fixed values, length-prefixed bodies.  Visiting the bytes
yields the fields in order, and re-entering over the span of a nested message
yields that message's fields.

`Yields` says what the visitor has to report for a tree; it is defined by
recursion on the tree and mentions no position.  The proof follows it: one field
at a position, then the fields of a message from a position on, each using the
other for nested messages.
-/

namespace RpcSpec.Admission

open RpcSpec.Foundation
open RpcSpec.Foundation.Base128

/-- A field number.  With the three bits of a wire type it makes a 64-bit tag. -/
abbrev FieldNumber := { n : Nat // n < 2 ^ 61 }

/-- The field number as the visitor reports it. -/
def FieldNumber.toUInt64 (number : FieldNumber) : UInt64 := UInt64.ofNat number.1

mutual

/-- The payload of a field. -/
inductive FieldBody where
  | varint (value : UInt64)
  | fixed64 (value : UInt64)
  | fixed32 (value : UInt32)
  | bytes (body : Bytes)
  | message (message : MessageTree)

/-- A list of numbered fields. -/
inductive MessageTree where
  | nil
  | cons (number : FieldNumber) (body : FieldBody) (rest : MessageTree)

end

/-! ## Encoding -/

/-- The low `width` bytes of `n`, least significant first. -/
def littleEndian : Nat → Nat → Bytes
  | 0, _ => []
  | width + 1, n => UInt8.ofNat (n % 256) :: littleEndian width (n / 256)

@[simp] theorem littleEndian_length (width n : Nat) :
    (littleEndian width n).length = width := by
  induction width generalizing n with
  | zero => rfl
  | succ width ih => simp [littleEndian, ih]

theorem readLittleEndian_littleEndian (width n : Nat) :
    readLittleEndian (littleEndian width n) = n % 256 ^ width := by
  induction width generalizing n with
  | zero => simp [littleEndian, readLittleEndian, Nat.mod_one]
  | succ width ih =>
      have hbyte := toNat_ofNat_of_lt (n := n % 256) (by omega)
      rw [littleEndian, readLittleEndian, ih, hbyte, Nat.pow_succ, Nat.mul_comm (256 ^ width),
        Nat.mod_mul]

/-- Wire type of a field body. -/
def FieldBody.wireType : FieldBody → Nat
  | .varint _ => 0
  | .fixed64 _ => 1
  | .fixed32 _ => 5
  | .bytes _ => 2
  | .message _ => 2

/-- The tag of a field. -/
def tagValue (number : FieldNumber) (body : FieldBody) : Nat :=
  number.1 * 8 + body.wireType

/-- A length-prefixed body. -/
def encodeLen (body : Bytes) : Bytes := encode body.length ++ body

mutual

def FieldBody.encodeBody : FieldBody → Bytes
  | .varint value => encode value.toNat
  | .fixed64 value => littleEndian 8 value.toNat
  | .fixed32 value => littleEndian 4 value.toNat
  | .bytes body => encodeLen body
  | .message message => encodeLen message.encode

/-- The standard encoding of a message. -/
def MessageTree.encode : MessageTree → Bytes
  | .nil => []
  | .cons number body rest =>
      Base128.encode (tagValue number body) ++ (body.encodeBody ++ rest.encode)

end

/-! ## What a visit has to report -/

/-- The visit of `bytes` with the recording check admits and records `events`. -/
def Records (bytes : ByteSpan) (events : List VisitEvent) : Prop :=
  ∀ options, VisitReturns bytes recording [] options (.admit_ 0, events)

/-- The event of a length-delimited field with the bytes `content`. -/
def IsBytesEvent (number : FieldNumber) (content : Bytes) (event : VisitEvent)
    (body : SubSpan) : Prop :=
  event = bytesEvent number.toUInt64 body ∧ body.InBounds ∧ body.toSpan.bytes = content

mutual

/-- `event` reports a field of this number and body.  For a nested message,
visiting the span of the event reports that message. -/
def FieldBody.Yields (number : FieldNumber) : FieldBody → VisitEvent → Prop
  | .varint value, event => event = scalarEvent number.toUInt64 value.toInt64
  | .fixed64 value, event => event = scalarEvent number.toUInt64 value.toInt64
  | .fixed32 value, event =>
      event = scalarEvent number.toUInt64 value.toUInt64.toInt64
  | .bytes content, event => ∃ body, IsBytesEvent number content event body
  | .message message, event => ∃ body events,
      IsBytesEvent number message.encode event body ∧
        Records body.toSpan events ∧ message.Yields events

/-- `events` reports the fields of the message, one event a field, in order. -/
def MessageTree.Yields : MessageTree → List VisitEvent → Prop
  | .nil, events => events = []
  | .cons number body rest, events => ∃ event events',
      events = event :: events' ∧ body.Yields number event ∧ rest.Yields events'

end

/-! ## One field -/

theorem wireType_lt (body : FieldBody) : body.wireType < 8 := by
  cases body <;> simp [FieldBody.wireType]

theorem tagValue_lt (number : FieldNumber) (body : FieldBody) :
    tagValue number body < 2 ^ 64 := by
  have hnumber := number.2
  have hwire := wireType_lt body
  unfold tagValue
  omega

theorem tagValue_mod (number : FieldNumber) (body : FieldBody) :
    tagValue number body % 8 = body.wireType := by
  have hwire := wireType_lt body
  unfold tagValue
  omega

/-- An encoded 64-bit value is read back where it stands. -/
theorem encode_at {bytes : ByteSpan} {p n : Nat} {rest : Bytes} (hn : n < 2 ^ 64)
    (hdrop : bytes.bytes.drop p = encode n ++ rest) :
    VarintAt bytes p n (p + (encode n).length) :=
  ⟨encode n, rest, hdrop, encode_numeral n, encode_length_le_ten hn, rfl⟩

/-- The visitor reads the number and the wire type of an encoded tag. -/
theorem decodeField_of_encodedTag {bytes : ByteSpan} {p : Nat} {number : FieldNumber}
    {body : FieldBody} {rest : Bytes}
    (hdrop : bytes.bytes.drop p = encode (tagValue number body) ++ rest) :
    decodeField bytes p =
      handleField bytes (p + (encode (tagValue number body)).length) number.toUInt64
        body.wireType := by
  have hlt := tagValue_lt number body
  obtain ⟨tag, _, hval, hdecode⟩ := decodeField_of_tag (encode_at hlt hdrop)
  have hnumber : tag >>> 3 = number.toUInt64 := by
    rw [Nat.mod_eq_of_lt hlt] at hval
    have hwire := wireType_lt body
    have hsmall := number.2
    apply UInt64.toNat_inj.mp
    rw [UInt64.toNat_shiftRight, hval, FieldNumber.toUInt64, UInt64.toNat_ofNat',
      Nat.mod_eq_of_lt (show number.1 < 2 ^ 64 by omega)]
    simp only [UInt64.toNat_ofNat, Nat.reducePow, Nat.reduceMod,
      Nat.shiftRight_eq_div_pow, tagValue]
    omega
  rw [hdecode, tagValue_mod, hnumber]

theorem handleVarint_encoded {bytes : ByteSpan} {p : Nat} {value : UInt64} {rest : Bytes}
    (field : UInt64) (hdrop : bytes.bytes.drop p = encode value.toNat ++ rest) :
    handleVarint bytes p field =
      .event (scalarEvent field value.toInt64) (p + (encode value.toNat).length) := by
  obtain ⟨out, hout, hval⟩ := (encode_at value.toNat_lt hdrop).readVarint
  rw [Nat.mod_eq_of_lt value.toNat_lt] at hval
  simp only [handleVarint, hout, UInt64.toNat_inj.mp hval]

theorem handleInt_encoded {bytes : ByteSpan} {p width n : Nat} {rest : Bytes}
    (field : UInt64) (hwidth : width ≤ 8)
    (hdrop : bytes.bytes.drop p = littleEndian width n ++ rest) (hn : n < 256 ^ width)
    (hpos : 0 < width) :
    handleInt bytes p field width =
      .event (scalarEvent field (UInt64.ofNat n).toInt64) (p + width) := by
  have hend := size_of_drop hdrop (by simpa using hpos)
  rw [littleEndian_length] at hend
  have htake : (bytes.bytes.drop p).take width = littleEndian width n := by
    rw [hdrop]
    exact List.take_left' (littleEndian_length width n)
  rw [handleInt_of_fits hwidth (by omega), htake, readLittleEndian_littleEndian,
    Nat.mod_eq_of_lt hn]

/-- A length-prefixed body is handed out as the span of exactly its bytes. -/
theorem handleLen_encoded {bytes : ByteSpan} {p : Nat} {content rest : Bytes}
    (number : FieldNumber) (hdrop : bytes.bytes.drop p = encodeLen content ++ rest) :
    ∃ event body, handleLen bytes p number.toUInt64 =
        .event event (p + (encodeLen content).length) ∧
      IsBytesEvent number content event body := by
  rw [encodeLen, List.append_assoc] at hdrop
  have hprefix := (encode_numeral content.length).length_pos
  have hend := size_of_drop hdrop hprefix
  have hsize : bytes.size < 2 ^ 63 := bytes.size_lt
  rw [List.length_append] at hend
  obtain ⟨len, hlen, hval⟩ := (encode_at (by omega) hdrop).readVarint
  rw [Nat.mod_eq_of_lt (by omega)] at hval
  have hadd : sizeAdd (p + (encode content.length).length) len.toNat =
      p + (encodeLen content).length := by
    rw [sizeAdd, hval, encodeLen, List.length_append]
    omega
  have hcount : content.length ≠ 2 ^ 64 - 1 := by omega
  have hfits : p + (encodeLen content).length ≤ bytes.size := by
    rw [encodeLen, List.length_append]
    omega
  refine ⟨_, bytes.subspan (p + (encode content.length).length) len.toNat, ?_, rfl, ?_, ?_⟩
  · rw [handleLen_of_fits hlen (by rw [hadd]; exact hfits), hadd]
  · simp only [SubSpan.InBounds, ByteSpan.subspan, hval, if_neg hcount]
    omega
  · simp only [SubSpan.toSpan, ByteSpan.subspan, hval, if_neg hcount]
    rw [drop_add_of_drop hdrop, List.take_left]

/-! ## Whole messages -/

/-- An event that the recording check is handed moves the visit on. -/
theorem visitLoop_recording_next {bytes : ByteSpan} {options : ProtobufVisitorOptions}
    {p q : Nat} {events : List VisitEvent} {event : VisitEvent}
    {result : AdmissionDecision × List VisitEvent} (hpos : p < bytes.size)
    (h : decodeField bytes p = .event event q) :
    (visitLoop bytes recording options).Returns ⟨p, events⟩ result ↔
      (visitLoop bytes recording options).Returns ⟨q, events ++ [event]⟩ result := by
  refine While.returns_iff_of_next ?_ ?_
  · simpa [visitLoop] using hpos
  · simp [visitLoop, visitBody, h, offer, recording]

mutual

/-- An encoded field is decoded to an event that reports it. -/
theorem FieldBody.decode (body : FieldBody) (number : FieldNumber) (bytes : ByteSpan)
    (p : Nat) (rest : Bytes)
    (hdrop : bytes.bytes.drop p =
      Base128.encode (tagValue number body) ++ (body.encodeBody ++ rest)) :
    ∃ event, decodeField bytes p = .event event
        (p + (Base128.encode (tagValue number body)).length + body.encodeBody.length) ∧
      body.Yields number event := by
  have hdecode := decodeField_of_encodedTag hdrop
  have hbody := drop_add_of_drop hdrop
  match body with
  | .varint value =>
      have hvarint := handleVarint_encoded number.toUInt64 hbody
      refine ⟨scalarEvent number.toUInt64 value.toInt64, hdecode.trans hvarint, ?_⟩
      simp only [FieldBody.Yields]
  | .fixed64 value =>
      have hint := handleInt_encoded number.toUInt64 (by decide) hbody value.toNat_lt
        (by decide)
      rw [UInt64.ofNat_toNat] at hint
      refine ⟨scalarEvent number.toUInt64 value.toInt64, hdecode.trans ?_, ?_⟩
      · simpa [FieldBody.encodeBody, FieldBody.wireType, handleField] using hint
      · simp only [FieldBody.Yields]
  | .fixed32 value =>
      have hint := handleInt_encoded number.toUInt64 (by decide) hbody value.toNat_lt
        (by decide)
      have hvalue : UInt64.ofNat value.toNat = value.toUInt64 := by
        apply UInt64.toNat_inj.mp
        have := value.toNat_lt
        rw [UInt64.toNat_ofNat', UInt32.toNat_toUInt64, Nat.mod_eq_of_lt (by omega)]
      rw [hvalue] at hint
      refine ⟨scalarEvent number.toUInt64 value.toUInt64.toInt64, hdecode.trans ?_, ?_⟩
      · simpa [FieldBody.encodeBody, FieldBody.wireType, handleField] using hint
      · simp only [FieldBody.Yields]
  | .bytes content =>
      obtain ⟨event, span, hlen, hspan⟩ := handleLen_encoded number hbody
      refine ⟨event, hdecode.trans hlen, ?_⟩
      simp only [FieldBody.Yields]
      exact ⟨span, hspan⟩
  | .message message =>
      obtain ⟨event, span, hlen, hspan⟩ := handleLen_encoded number hbody
      obtain ⟨events, hreturns, hyields⟩ := message.visit span.toSpan 0 []
        (by rw [List.drop_zero, hspan.2.2])
      refine ⟨event, hdecode.trans hlen, ?_⟩
      simp only [FieldBody.Yields]
      exact ⟨span, events, hspan, by simpa [Records, VisitReturns] using hreturns, hyields⟩

/-- From a position where an encoded message stands, and nothing behind it, the
visit records the message's fields. -/
theorem MessageTree.visit (message : MessageTree) (bytes : ByteSpan) (p : Nat)
    (recorded : List VisitEvent) (hdrop : bytes.bytes.drop p = message.encode) :
    ∃ events, (∀ options, (visitLoop bytes recording options).Returns ⟨p, recorded⟩
        (.admit_ 0, recorded ++ events)) ∧ message.Yields events := by
  match message with
  | .nil =>
      refine ⟨[], ?_, by simp only [MessageTree.Yields]⟩
      intro options
      have hend : ¬ p < bytes.size := by
        have := congrArg List.length hdrop
        simp only [List.length_drop, MessageTree.encode, List.length_nil] at this
        simp only [ByteSpan.size]
        omega
      rw [List.append_nil]
      exact While.returns_of_guard_false (by simpa [visitLoop] using hend)
  | .cons number body rest =>
      rw [MessageTree.encode] at hdrop
      have hpos : p < bytes.size := by
        have := (encode_at (tagValue_lt number body) hdrop).lt
        omega
      obtain ⟨event, hdecode, hyields⟩ := body.decode number bytes p rest.encode hdrop
      obtain ⟨events, hreturns, hrest⟩ := rest.visit bytes
        (p + (Base128.encode (tagValue number body)).length + body.encodeBody.length)
        (recorded ++ [event]) (drop_add_of_drop (drop_add_of_drop hdrop))
      refine ⟨event :: events, ?_, ?_⟩
      · intro options
        rw [visitLoop_recording_next hpos hdecode]
        simpa using hreturns options
      · simp only [MessageTree.Yields]
        exact ⟨event, events, rfl, hyields, hrest⟩

end

/-- Visiting the encoding of a message tree that fits in memory admits it and
reports its fields: one event a field, in order, nested messages by their spans,
which report their own fields in the same way. -/
theorem encode_visit_roundTrip (message : MessageTree)
    (hsize : message.encode.length < 2 ^ 63) :
    ∃ events, Records ⟨message.encode, hsize⟩ events ∧ message.Yields events := by
  obtain ⟨events, hreturns, hyields⟩ :=
    message.visit ⟨message.encode, hsize⟩ 0 [] (by rw [List.drop_zero])
  exact ⟨events, by simpa [Records, VisitReturns] using hreturns, hyields⟩

/-- `{ 1: 300, 2: { 1: "a", 3: fixed32 7 } }`. -/
def sampleTree : MessageTree :=
  .cons ⟨1, by decide⟩ (.varint 300)
    (.cons ⟨2, by decide⟩
      (.message (.cons ⟨1, by decide⟩ (.bytes [97])
        (.cons ⟨3, by decide⟩ (.fixed32 7) .nil))) .nil)

theorem sampleTree_roundTrip :
    ∃ (hsize : sampleTree.encode.length < 2 ^ 63) (events : List VisitEvent),
      Records ⟨sampleTree.encode, hsize⟩ events ∧ sampleTree.Yields events :=
  have hsize : sampleTree.encode.length < 2 ^ 63 := by
    simp [sampleTree, MessageTree.encode, FieldBody.encodeBody, encodeLen, tagValue,
      FieldBody.wireType, Base128.encode, littleEndian]
  ⟨hsize, encode_visit_roundTrip sampleTree hsize⟩

end RpcSpec.Admission
