import PetFeeder.Proofs.VarintSpans
import PetFeeder.Wire.Message

/-!
# The field grammar

A message on the wire is a run of fields. Here a field is taken as the reader meets it, as bytes:
the bytes of its key (`RawField.keyBytes`), then the bytes of its value
(`RawField.valueBytes`).

* `Names key w t`: the key is a whole varint whose low three bits are the code of the wire type
  `w` and whose other bits are the tag `t`, from 1 to `2 ^ 32 - 1`.
* `ValueBytes w v`: `v` is laid out as a value of wire type `w` (a varint; eight bytes; a length
  varint and that many bytes; four bytes).
* `RawField.Fits knows f`: the field is one a message knowing the tags `knows` accepts; a known
  tag must come as a varint.
* `Breaks knows bs e`: the bytes `bs` fail to start with such a field, and `e` is what the
  reader reports, the first of its checks that fails.

Nonempty bytes either start with a field that fits or break (`fits_or_breaks`). A message whose
known fields are all varints (`VarintSchema`) decodes one field per round: a field that fits is
read whole and absorbed (`VarintSchema.decodeFrom_fits`); bytes that break stop the decoder
with their error (`VarintSchema.decodeFrom_breaks`).
-/

namespace PetFeeder.Wire

open Varint

/-- The bytes a value of wire type `w` takes after its key. -/
def ValueBytes : WireType → List UInt8 → Prop
  | .varint, v => Complete v
  | .fixed64, v => v.length = 8
  | .fixed32, v => v.length = 4
  | .lengthDelimited, v =>
    ∃ len payload, Complete len ∧ v = len ++ payload ∧ payload.length = Varint.value len

/-- One field as it stands on the wire: the bytes of its key, then the bytes of its value. -/
structure RawField where
  keyBytes : List UInt8
  valueBytes : List UInt8

namespace RawField

def bytes (f : RawField) : List UInt8 := f.keyBytes ++ f.valueBytes
def keyValue (f : RawField) : Nat := Varint.value f.keyBytes
def tag (f : RawField) : Nat := f.keyValue / 8
def number (f : RawField) : Nat := Varint.value f.valueBytes

end RawField

/-- `Names key w t`: the bytes `key` are a whole varint naming the wire type `w` and the tag
`t`, a tag from 1 to `2 ^ 32 - 1`. -/
def Names (key : List UInt8) (w : WireType) (t : Nat) : Prop :=
  Complete key ∧ w.code = Varint.value key % 8 ∧ t = Varint.value key / 8 ∧ 1 ≤ t ∧
    t < 4294967296

namespace RawField

/-- A field a message knowing the tags `knows` accepts: its key names a wire type and a tag, its
value has that wire type's layout, and a known tag comes as a varint. -/
def Fits (knows : Nat → Bool) (f : RawField) : Prop :=
  ∃ w, Names f.keyBytes w f.tag ∧ ValueBytes w f.valueBytes ∧ (knows f.tag = true → w = .varint)

end RawField

theorem WireType.ofRaw_of_ne {n : Nat} (h : ∀ w : WireType, w.code ≠ n) :
    WireType.ofRaw n = .error (.unknownWireType n) := by
  unfold WireType.ofRaw
  split
  · exact absurd rfl (h .varint)
  · exact absurd rfl (h .fixed64)
  · exact absurd rfl (h .lengthDelimited)
  · exact absurd rfl (h .fixed32)
  · rfl

theorem nextKey_cons (c : UInt8) (bs : List UInt8) :
    nextKey (c :: bs) = (do
      let raw ← varintFrom c
      match WireType.ofRaw (raw % 8) with
      | .error e => throw e
      | .ok w =>
        let tag := raw / 8
        if tag = 0 ∨ 4294967296 ≤ tag then throw DecodeError.invalidTag
        else pure (some (⟨tag, w⟩ : FieldKey))) bs := rfl

variable {key : List UInt8}

theorem nextKey_key (hk : Complete key) {w : WireType} (hw : w.code = Varint.value key % 8)
    (ht : 1 ≤ Varint.value key / 8) (ht' : Varint.value key / 8 < 4294967296) (rest : List UInt8) :
    nextKey (key ++ rest) = .ok (some ⟨Varint.value key / 8, w⟩) rest := by
  obtain ⟨c, t, rfl⟩ := List.exists_cons_of_ne_nil hk.1.ne_nil
  rw [List.cons_append, nextKey_cons]
  simp only [bind, EStateM.bind, varintFrom_complete hk, ← hw, WireType.ofRaw_code]
  have : ¬ (Varint.value (c :: t) / 8 = 0 ∨ 4294967296 ≤ Varint.value (c :: t) / 8) := by omega
  rw [if_neg this]
  rfl

/-- A key that names a wire type and a tag is read as that key. -/
theorem nextKey_names {w : WireType} {t : Nat} (hn : Names key w t) (rest : List UInt8) :
    nextKey (key ++ rest) = .ok (some ⟨t, w⟩) rest := by
  obtain ⟨hk, hw, rfl, ht, ht'⟩ := hn
  exact nextKey_key hk hw ht ht' rest

theorem nextKey_cut {bs : List UInt8} (hne : bs ≠ []) (h : Cut bs) :
    nextKey bs = .error .truncated [] := by
  obtain ⟨c, t, rfl⟩ := List.exists_cons_of_ne_nil hne
  rw [nextKey_cons]
  simp only [bind, EStateM.bind, varintFrom_cut h]

theorem nextKey_overlong {bs : List UInt8} (h : Overlong bs) :
    ∃ s, nextKey bs = .error .varintOverflow s := by
  have hne : bs ≠ [] := by
    obtain ⟨pre, r, rfl, hlen, -⟩ := h
    intro hnil
    simp only [List.append_eq_nil_iff] at hnil
    rw [hnil.1] at hlen
    simp at hlen
  obtain ⟨c, t, rfl⟩ := List.exists_cons_of_ne_nil hne
  obtain ⟨s, hs⟩ := varintFrom_overlong h
  rw [nextKey_cons]
  exact ⟨s, by simp only [bind, EStateM.bind, hs]⟩

theorem nextKey_wireType (hk : Complete key) (hw : ∀ w : WireType, w.code ≠ Varint.value key % 8)
    (rest : List UInt8) : ∃ s, nextKey (key ++ rest) = .error (.unknownWireType (Varint.value key % 8)) s := by
  obtain ⟨c, t, rfl⟩ := List.exists_cons_of_ne_nil hk.1.ne_nil
  rw [List.cons_append, nextKey_cons]
  simp only [bind, EStateM.bind, varintFrom_complete hk, WireType.ofRaw_of_ne hw]
  exact ⟨_, rfl⟩

theorem nextKey_tag (hk : Complete key) {w : WireType} (hw : w.code = Varint.value key % 8)
    (ht : Varint.value key / 8 = 0 ∨ 4294967296 ≤ Varint.value key / 8) (rest : List UInt8) :
    ∃ s, nextKey (key ++ rest) = .error .invalidTag s := by
  obtain ⟨c, t, rfl⟩ := List.exists_cons_of_ne_nil hk.1.ne_nil
  rw [List.cons_append, nextKey_cons]
  simp only [bind, EStateM.bind, varintFrom_complete hk, ← hw, WireType.ofRaw_code]
  rw [if_pos ht]
  exact ⟨_, rfl⟩

/-- How the bytes after a key of wire type `w` fail to be its value, and what the reader
reports. -/
inductive ValueBreaks : WireType → List UInt8 → DecodeError → Prop
  | varintCut {v : List UInt8} : Cut v → ValueBreaks .varint v .truncated
  | varintLong {v : List UInt8} : Overlong v → ValueBreaks .varint v .varintOverflow
  | fixed64Short {v : List UInt8} : v.length < 8 → ValueBreaks .fixed64 v .truncated
  | fixed32Short {v : List UInt8} : v.length < 4 → ValueBreaks .fixed32 v .truncated
  | lengthCut {v : List UInt8} : Cut v → ValueBreaks .lengthDelimited v .truncated
  | lengthLong {v : List UInt8} : Overlong v → ValueBreaks .lengthDelimited v .varintOverflow
  | payloadShort {len payload : List UInt8} : Complete len →
      payload.length < Varint.value len → ValueBreaks .lengthDelimited (len ++ payload) .truncated

theorem readUInt64_varint {v : List UInt8} (hv : Complete v) (t : Nat) (rest : List UInt8) :
    readUInt64 ⟨t, .varint⟩ (v ++ rest) = .ok (Varint.value v) rest := by
  simp only [readUInt64, expect, bind, EStateM.bind, if_pos, pure, EStateM.pure]
  exact readVarint_complete hv rest

theorem readUInt64_breaks {v : List UInt8} {e : DecodeError} (h : ValueBreaks .varint v e)
    (t : Nat) : ∃ s, readUInt64 ⟨t, .varint⟩ v = .error e s := by
  simp only [readUInt64, expect, bind, EStateM.bind, if_pos, pure, EStateM.pure]
  cases h with
  | varintCut hc => exact ⟨_, readVarint_cut hc⟩
  | varintLong hl => exact readVarint_overlong hl

theorem readUInt64_mismatch {t : Nat} {w : WireType} (hw : w ≠ .varint) (bs : List UInt8) :
    readUInt64 ⟨t, w⟩ bs = .error (.wireTypeMismatch t) bs := by
  simp only [readUInt64, bind, EStateM.bind, expect_mismatch ⟨t, w⟩ .varint hw bs]

theorem dropBytes_append (pre rest : List UInt8) : dropBytes pre.length (pre ++ rest) = .ok () rest := by
  induction pre with
  | nil => rfl
  | cons b pre ih =>
    simp only [List.length_cons, List.cons_append, dropBytes, bind, EStateM.bind, byte_cons]
    exact ih

theorem dropBytes_short {n : Nat} {bs : List UInt8} (h : bs.length < n) :
    dropBytes n bs = .error .truncated [] := by
  induction bs generalizing n with
  | nil =>
    obtain ⟨n, rfl⟩ : ∃ k, n = k + 1 := ⟨n - 1, by simp at h; omega⟩
    rfl
  | cons b bs ih =>
    obtain ⟨n, rfl⟩ : ∃ k, n = k + 1 := ⟨n - 1, by simp at h; omega⟩
    simp only [dropBytes, bind, EStateM.bind, byte_cons]
    exact ih (by simp at h; omega)

/-- **Passing over a value.** `skip` takes exactly the bytes of a value of its wire type. -/
theorem skip_value {w : WireType} {v : List UInt8} (h : ValueBytes w v) (rest : List UInt8) :
    skip w (v ++ rest) = .ok () rest := by
  cases w with
  | varint =>
    simp only [skip, bind, EStateM.bind, readVarint_complete h rest, pure, EStateM.pure]
  | fixed64 =>
    simp only [ValueBytes] at h
    rw [skip, ← h, dropBytes_append]
  | fixed32 =>
    simp only [ValueBytes] at h
    rw [skip, ← h, dropBytes_append]
  | lengthDelimited =>
    obtain ⟨len, payload, hlen, rfl, hpay⟩ := h
    simp only [skip, bind, EStateM.bind, List.append_assoc, readVarint_complete hlen, ← hpay,
      dropBytes_append]

/-- **Failing to pass over a value.** `skip` reports what breaks the value. -/
theorem skip_breaks {w : WireType} {v : List UInt8} {e : DecodeError} (h : ValueBreaks w v e) :
    ∃ s, skip w v = .error e s := by
  cases h with
  | varintCut hc => exact ⟨[], by simp only [skip, bind, EStateM.bind, readVarint_cut hc]⟩
  | varintLong hl =>
    obtain ⟨s, hs⟩ := readVarint_overlong hl
    exact ⟨s, by simp only [skip, bind, EStateM.bind, hs]⟩
  | fixed64Short hs => exact ⟨_, dropBytes_short hs⟩
  | fixed32Short hs => exact ⟨_, dropBytes_short hs⟩
  | lengthCut hc => exact ⟨[], by simp only [skip, bind, EStateM.bind, readVarint_cut hc]⟩
  | lengthLong hl =>
    obtain ⟨s, hs⟩ := readVarint_overlong hl
    exact ⟨s, by simp only [skip, bind, EStateM.bind, hs]⟩
  | payloadShort hlen hshort =>
    exact ⟨[], by simp only [skip, bind, EStateM.bind, readVarint_complete hlen, dropBytes_short hshort]⟩

/-- How the bytes `bs` fail to start with a field of a message that knows the tags `knows`, and
what the reader reports: the first of its checks that fails. -/
inductive Breaks (knows : Nat → Bool) : List UInt8 → DecodeError → Prop
  | keyCut {bs : List UInt8} : bs ≠ [] → Cut bs → Breaks knows bs .truncated
  | keyLong {bs : List UInt8} : Overlong bs → Breaks knows bs .varintOverflow
  | wireType {key rest : List UInt8} : Complete key →
      (∀ w : WireType, w.code ≠ Varint.value key % 8) →
      Breaks knows (key ++ rest) (.unknownWireType (Varint.value key % 8))
  | tag {key rest : List UInt8} {w : WireType} : Complete key → w.code = Varint.value key % 8 →
      (Varint.value key / 8 = 0 ∨ 4294967296 ≤ Varint.value key / 8) →
      Breaks knows (key ++ rest) .invalidTag
  | mismatch {key rest : List UInt8} {w : WireType} {t : Nat} : Names key w t →
      knows t = true → w ≠ .varint → Breaks knows (key ++ rest) (.wireTypeMismatch t)
  | value {key rest : List UInt8} {w : WireType} {t : Nat} {e : DecodeError} : Names key w t →
      (knows t = true → w = .varint) → ValueBreaks w rest e → Breaks knows (key ++ rest) e

/-- **Every value either stands or breaks.** The bytes after a key of wire type `w` start with
a value of that wire type, or break in one of the ways the reader reports. -/
theorem value_split (w : WireType) (bs : List UInt8) :
    (∃ v rest, ValueBytes w v ∧ bs = v ++ rest) ∨ ∃ e, ValueBreaks w bs e := by
  cases w with
  | varint =>
    rcases split_prefix bs with ⟨v, rest, hv, rfl⟩ | hc | hl
    · exact .inl ⟨v, rest, hv, rfl⟩
    · exact .inr ⟨_, .varintCut hc⟩
    · exact .inr ⟨_, .varintLong hl⟩
  | fixed64 =>
    by_cases h : 8 ≤ bs.length
    · exact .inl ⟨bs.take 8, bs.drop 8, by simp [ValueBytes]; omega, (List.take_append_drop 8 bs).symm⟩
    · exact .inr ⟨_, .fixed64Short (by omega)⟩
  | fixed32 =>
    by_cases h : 4 ≤ bs.length
    · exact .inl ⟨bs.take 4, bs.drop 4, by simp [ValueBytes]; omega, (List.take_append_drop 4 bs).symm⟩
    · exact .inr ⟨_, .fixed32Short (by omega)⟩
  | lengthDelimited =>
    rcases split_prefix bs with ⟨len, rest, hlen, rfl⟩ | hc | hl
    · -- a whole length: the payload is there or it is short
      by_cases h : Varint.value len ≤ rest.length
      · refine .inl ⟨len ++ rest.take (Varint.value len), rest.drop (Varint.value len),
          ⟨len, _, hlen, rfl, by simp; omega⟩, by simp⟩
      · exact .inr ⟨_, .payloadShort hlen (by omega)⟩
    · exact .inr ⟨_, .lengthCut hc⟩
    · exact .inr ⟨_, .lengthLong hl⟩

/-- **Every field either stands or breaks.** Nonempty bytes start with a field that fits a
message knowing the tags `knows`, or break in one of the ways the reader reports. The cases
follow the reader's checks in order: the key's varint, its wire type, its tag, a known tag's
wire type, then the value. -/
theorem fits_or_breaks (knows : Nat → Bool) {bs : List UInt8} (hne : bs ≠ []) :
    (∃ (f : RawField) (rest : List UInt8), f.Fits knows ∧ bs = f.bytes ++ rest) ∨ ∃ e, Breaks knows bs e := by
  rcases split_prefix bs with ⟨key, rest, hk, rfl⟩ | hc | hl
  · by_cases hw : ∃ w : WireType, w.code = Varint.value key % 8
    · obtain ⟨w, hw⟩ := hw
      by_cases ht : Varint.value key / 8 = 0 ∨ 4294967296 ≤ Varint.value key / 8
      · exact .inr ⟨_, .tag hk hw ht⟩
      have hn : Names key w (Varint.value key / 8) := ⟨hk, hw, rfl, by omega, by omega⟩
      by_cases hm : knows (Varint.value key / 8) = true ∧ w ≠ .varint
      · exact .inr ⟨_, .mismatch hn hm.1 hm.2⟩
      have hknown : knows (Varint.value key / 8) = true → w = .varint := by
        intro h
        by_contra hne
        exact hm ⟨h, hne⟩
      rcases value_split w rest with ⟨v, rest', hv, rfl⟩ | ⟨e, he⟩
      · exact .inl ⟨⟨key, v⟩, rest', ⟨w, hn, hv, hknown⟩, by simp [RawField.bytes]⟩
      · exact .inr ⟨e, .value hn hknown he⟩
    · exact .inr ⟨_, .wireType hk fun w hw' => hw ⟨w, hw'⟩⟩
  · exact .inr ⟨_, .keyCut hne hc⟩
  · exact .inr ⟨_, .keyLong hl⟩

/-- A message whose known fields are all varints: which tags it knows, and how the number read
for a known tag goes into it. -/
structure VarintSchema (α : Type) [WireMessage α] where
  knows : Nat → Bool
  absorb : α → Nat → Nat → α
  merge_known : ∀ (m : α) (key : FieldKey), knows key.tag = true →
    WireMessage.merge m key = some (absorb m key.tag <$> readUInt64 key)
  merge_unknown : ∀ (m : α) (key : FieldKey), knows key.tag = false →
    WireMessage.merge m key = none

namespace VarintSchema

variable {α : Type} [WireMessage α] (S : VarintSchema α)

/-- The message after a field that fits it: a known field's number goes in, an unknown field
changes nothing. -/
def absorbField (m : α) (f : RawField) : α :=
  if S.knows f.tag then S.absorb m f.tag f.number else m

theorem field_fits {f : RawField} {w : WireType} (hn : Names f.keyBytes w f.tag)
    (hv : ValueBytes w f.valueBytes) (hk : S.knows f.tag = true → w = .varint) (m : α)
    (rest : List UInt8) : field m ⟨f.tag, w⟩ (f.valueBytes ++ rest) = .ok (S.absorbField m f) rest := by
  cases h : S.knows f.tag with
  | true =>
    obtain rfl := hk h
    simp only [field, S.merge_known m ⟨f.tag, .varint⟩ h, Functor.map, EStateM.map,
      readUInt64_varint hv, absorbField, h, if_true]
    rfl
  | false =>
    simp only [field, S.merge_unknown m ⟨f.tag, w⟩ h, bind, EStateM.bind, skip_value hv,
      absorbField, h]
    rfl

theorem decodeFrom_nil (m : α) (fuel : Nat) : decodeFrom m (fuel + 1) [] = .ok m := rfl

/-- **One field that fits.** A round of the decoder reads it whole and absorbs it. -/
theorem decodeFrom_fits {f : RawField} (hf : f.Fits S.knows) (m : α) (fuel : Nat)
    (rest : List UInt8) :
    decodeFrom m (fuel + 1) (f.bytes ++ rest) = decodeFrom (S.absorbField m f) fuel rest := by
  obtain ⟨w, hn, hv, hk⟩ := hf
  simp only [decodeFrom, RawField.bytes, List.append_assoc, nextKey_names hn,
    S.field_fits hn hv hk m rest]

/-- **Bytes that break the grammar.** A round of the decoder fails with the error they are
reported as. -/
theorem decodeFrom_breaks {bs : List UInt8} {e : DecodeError} (hb : Breaks S.knows bs e) (m : α)
    (fuel : Nat) : decodeFrom m (fuel + 1) bs = .error e := by
  cases hb with
  | keyCut hne hc => simp only [decodeFrom, nextKey_cut hne hc]
  | keyLong hl =>
    obtain ⟨s, hs⟩ := nextKey_overlong hl
    simp only [decodeFrom, hs]
  | @wireType key rest hk hw =>
    obtain ⟨s, hs⟩ := nextKey_wireType hk hw rest
    simp only [decodeFrom, hs]
  | @tag key rest w hk hw ht =>
    obtain ⟨s, hs⟩ := nextKey_tag hk hw ht rest
    simp only [decodeFrom, hs]
  | @mismatch key rest w t hn hknown hw =>
    simp only [decodeFrom, nextKey_names hn rest, field, S.merge_known m ⟨t, w⟩ hknown, Functor.map, EStateM.map,
      readUInt64_mismatch hw]
  | @value key rest w t e hn hk hv =>
    have hkey := nextKey_names hn rest
    cases h : S.knows t with
    | true =>
      obtain rfl := hk h
      obtain ⟨s, hs⟩ := readUInt64_breaks hv t
      simp only [decodeFrom, hkey, field, S.merge_known m ⟨t, .varint⟩ h, Functor.map,
        EStateM.map, hs]
    | false =>
      obtain ⟨s, hs⟩ := skip_breaks hv
      simp only [decodeFrom, hkey, field, S.merge_unknown m ⟨t, w⟩ h, bind, EStateM.bind, hs]

end VarintSchema

end PetFeeder.Wire
