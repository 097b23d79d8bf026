import PetFeeder.Proofs.CheckInDecode

/-!
# Writing check-in messages and reading them back

On a growable sink every write succeeds and appends a fixed run of bytes (`Appends`), so a
writer's output is a sum of the pieces it is built from. A message whose present fields are all
varints is written as a run of varint fields (`varintField`), which fits the decoder's grammar;
the decoder then gives the message back as the last field of each tag, which is the only one.

* `Response.encode_appends`, `Request.encode_appends`: the writer lays out the fields in tag
  order, and their length is the one the message announces;
* `Response.decode_fields`, `Request.decode_fields`: those fields decode to the message;
* `writeMessage_appends`, `nextKey_nested`: a nested message is its key, its announced length
  and its fields, and the reader takes the key and the length back off.
-/

namespace PetFeeder

open Wire

/-! ## Writing into a growable sink -/

/-- The writer `x` succeeds on every growable sink and appends `bs` to it. -/
def Appends (x : Emit Unit) (bs : List UInt8) : Prop :=
  ∀ s : Sink, s.capacity = none → x s = .ok () { s with bytes := s.bytes ++ bs.toArray }

namespace Appends

theorem pure : Appends (Pure.pure ()) [] := by
  intro s _
  simp [Pure.pure, EStateM.pure]

theorem bind {x y : Emit Unit} {a b : List UInt8} (hx : Appends x a) (hy : Appends y b) :
    Appends (x >>= fun _ => y) (a ++ b) := by
  intro s hs
  simp only [Bind.bind, EStateM.bind, hx s hs]
  refine (hy { s with bytes := s.bytes ++ a.toArray } hs).trans ?_
  simp [Array.append_assoc]

theorem writeVarint (v : Nat) : Appends (Wire.writeVarint v) (Varint.encode v) :=
  fun s hs => writeVarint_growable v s hs

end Appends

/-! ## Varint fields as the writer lays them out -/

namespace Wire

/-- The varint field of tag `t` and number `v`: its key, then the varint of `v`. -/
def varintField (t v : Nat) : RawField :=
  ⟨Varint.encode (FieldKey.raw t .varint), Varint.encode v⟩

/-- The field of tag `t` holding the number in `o`, if there is one. -/
def optField (t : Nat) (o : Option Nat) : List RawField := (o.map (varintField t)).toList

theorem appends_writeUInt64 (t v : Nat) : Appends (writeUInt64 t v) (varintField t v).bytes :=
  (Appends.writeVarint _).bind (Appends.writeVarint v)

/-- Writes the varint field of tag `t` if `o` holds a number. -/
def writeOpt (t : Nat) (o : Option Nat) : Emit Unit :=
  match o with
  | some v => writeUInt64 t v
  | none => Pure.pure ()

theorem appends_writeOpt (t : Nat) (o : Option Nat) :
    Appends (writeOpt t o) (joinFields (optField t o)) := by
  cases o with
  | none => exact Appends.pure
  | some v => simpa [optField, writeOpt] using appends_writeUInt64 t v

theorem length_varintField (t v : Nat) : (varintField t v).bytes.length = uint64FieldLength t v := by
  simp [varintField, RawField.bytes, keyLength_raw, uint64FieldLength]

theorem uint64FieldLength_le {t v : Nat} (ht : t < 4294967296) (hv : v < 18446744073709551616) :
    uint64FieldLength t v ≤ 20 := by
  have hk := Varint.length_le_ten (t * 8) (by omega)
  have hl := Varint.length_le_ten v hv
  unfold uint64FieldLength keyLength
  omega

/-- The key the writer emits for tag `t` names that tag and the wire type it was written with. -/
theorem names_encode_raw {t : Nat} (h1 : 1 ≤ t) (ht : t < 4294967296) (w : WireType) :
    Names (Varint.encode (FieldKey.raw t w)) w t := by
  have hw := w.code_lt_eight
  have hraw : FieldKey.raw t w < 18446744073709551616 := by unfold FieldKey.raw; omega
  refine ⟨Varint.complete_encode hraw, ?_, ?_, h1, ht⟩ <;>
    rw [Varint.value_encode hraw] <;> unfold FieldKey.raw <;> omega

theorem varintField_tag {t v : Nat} (h1 : 1 ≤ t) (ht : t < 4294967296) :
    (varintField t v).tag = t :=
  ((names_encode_raw h1 ht .varint).2.2.1).symm

theorem varintField_fits (knows : Nat → Bool) {t v : Nat} (h1 : 1 ≤ t) (ht : t < 4294967296)
    (hv : v < 18446744073709551616) : (varintField t v).Fits knows := by
  refine ⟨.varint, ?_, Varint.complete_encode hv, fun _ => rfl⟩
  rw [varintField_tag h1 ht]
  exact names_encode_raw h1 ht .varint

theorem varintField_number (t : Nat) {v : Nat} (hv : v < 18446744073709551616) :
    (varintField t v).number = v :=
  Varint.value_encode hv

theorem lastNumber_append (xs ys : List RawField) (t : Nat) :
    lastNumber (xs ++ ys) t = (lastNumber ys t).or (lastNumber xs t) := by
  unfold lastNumber
  rw [List.filter_append, List.getLast?_append]
  cases (ys.filter (·.tag == t)).getLast? <;> simp

/-- The written field of tag `i` is the last of tag `t` when the tags agree, and none otherwise. -/
theorem lastNumber_optField (i : Nat) (h1 : 1 ≤ i) (hi : i < 4294967296) {o : Option Nat}
    (ho : ∀ v ∈ o, v < 18446744073709551616) (t : Nat) :
    lastNumber (optField i o) t = if i = t then o else none := by
  cases o with
  | none => simp [optField]
  | some v =>
    have hv := ho v rfl
    by_cases h : i = t
    · subst h
      simp [lastNumber, optField, varintField_tag h1 hi, varintField_number i hv]
    · simp [lastNumber, optField, varintField_tag h1 hi, h]

theorem joinFields_append (xs ys : List RawField) :
    joinFields (xs ++ ys) = joinFields xs ++ joinFields ys := by
  simp [joinFields]

theorem length_joinFields_optField (t : Nat) (o : Option Nat) :
    (joinFields (optField t o)).length = Response.fieldLen t o := by
  cases o <;> simp [optField, Response.fieldLen, length_varintField]

theorem optField_fits (knows : Nat → Bool) {t : Nat} (h1 : 1 ≤ t) (ht : t < 4294967296)
    {o : Option Nat} (ho : ∀ v ∈ o, v < 18446744073709551616) : ∀ f ∈ optField t o, f.Fits knows := by
  cases o with
  | none => simp [optField]
  | some v =>
    intro f hf
    simp only [optField, Option.map_some, Option.toList_some, List.mem_singleton] at hf
    subst hf
    exact varintField_fits knows h1 ht (ho v rfl)

/-- **A nested message.** Written as field `tag` of a growable sink, a message whose fields are
`bs` is its key, the varint of its announced length, then `bs`; the reader takes the key back as
a length-delimited field of that tag and the length back as the announced one. -/
theorem nested_readBack {α : Type} [WireMessage α] {tag : Nat} (h1 : 1 ≤ tag)
    (ht : tag < 4294967296) (m : α) {bs : List UInt8} (hw : Appends (WireMessage.writeFields m) bs)
    (hlen : WireMessage.encodedLen m < 18446744073709551616) (s : Sink) (hs : s.capacity = none) :
    ∃ len, writeMessage tag m s =
        .ok () { s with bytes := s.bytes ++ (Varint.encode (FieldKey.raw tag .lengthDelimited) ++ len ++ bs).toArray } ∧
      nextKey (Varint.encode (FieldKey.raw tag .lengthDelimited) ++ len ++ bs) =
        .ok (some ⟨tag, .lengthDelimited⟩) (len ++ bs) ∧
      readVarint (len ++ bs) = .ok (WireMessage.encodedLen m) bs := by
  refine ⟨Varint.encode (WireMessage.encodedLen m), ?_, ?_, ?_⟩
  · exact ((Appends.writeVarint _).bind ((Appends.writeVarint _).bind hw)) s hs |>.trans (by simp)
  · rw [List.append_assoc]
    exact nextKey_names (names_encode_raw h1 ht .lengthDelimited) _
  · rw [Varint.readVarint_complete (Varint.complete_encode hlen), Varint.value_encode hlen]

end Wire

/-! ## The check-in messages -/

namespace Response

/-- The values a response can carry: the intervals fit 64 bits and the scoop count 32. -/
def InRange (r : Response) : Prop :=
  (∀ v ∈ r.checkinIntervalMs, v < 18446744073709551616) ∧
    (∀ v ∈ r.feedIntervalMs, v < 18446744073709551616) ∧ (∀ v ∈ r.scoopsToFeed, v < 4294967296)

instance : DecidablePred InRange := fun r => by
  unfold InRange
  infer_instance

theorem InRange.scoops_lt {r : Response} (hr : r.InRange) :
    ∀ v ∈ r.scoopsToFeed, v < 18446744073709551616 := fun v hv => by
  have := hr.2.2 v hv
  omega

/-- A truth value is written as a bit, which fits any width. -/
theorem bit_lt (o : Option Bool) : ∀ v ∈ o.map bit, v < 18446744073709551616 := by
  intro v hv
  obtain ⟨b, -, rfl⟩ := Option.mem_map.1 hv
  cases b <;> decide

/-- The fields the writer lays out for `r`: each present one, in tag order. -/
def fields (r : Response) : List RawField :=
  optField 1 r.checkinIntervalMs ++ optField 2 r.feedIntervalMs ++ optField 3 r.scoopsToFeed ++
    optField 4 (r.feedingAck.map bit)

/-- The writer writes the four optional fields in tag order, the acknowledgement as its bit. -/
theorem writeFields_eq (r : Response) :
    writeFields r = (do
      writeOpt 1 r.checkinIntervalMs
      writeOpt 2 r.feedIntervalMs
      writeOpt 3 r.scoopsToFeed
      writeOpt 4 (r.feedingAck.map bit)) := by
  rcases r with ⟨c, f, s, a⟩
  cases c <;> cases f <;> cases s <;> cases a <;> rfl

theorem encode_appends (r : Response) : Appends (writeFields r) (joinFields r.fields) := by
  rw [writeFields_eq]
  simp only [fields, joinFields_append, List.append_assoc]
  exact (appends_writeOpt 1 _).bind ((appends_writeOpt 2 _).bind
    ((appends_writeOpt 3 _).bind (appends_writeOpt 4 _)))

theorem length_fields (r : Response) : (joinFields r.fields).length = encodedLen r := by
  simp only [fields, joinFields_append, List.length_append, length_joinFields_optField, encodedLen]

theorem encodedLen_le {r : Response} (hr : r.InRange) : encodedLen r ≤ 80 := by
  -- each present field takes at most twenty bytes
  have hf : ∀ t o, t < 4294967296 → (∀ v ∈ o, v < 18446744073709551616) → fieldLen t o ≤ 20 := by
    intro t o ht ho
    cases o with
    | none => simp [fieldLen]
    | some v => exact uint64FieldLength_le ht (ho v rfl)
  have := hf 1 _ (by decide) hr.1
  have := hf 2 _ (by decide) hr.2.1
  have := hf 3 _ (by decide) hr.scoops_lt
  have := hf 4 _ (by decide) (bit_lt r.feedingAck)
  unfold encodedLen
  omega

theorem fields_fit {r : Response} (hr : r.InRange) : ∀ f ∈ r.fields, f.Fits knownTag := by
  intro f hf
  simp only [fields, List.mem_append] at hf
  rcases hf with ((hf | hf) | hf) | hf
  · exact optField_fits _ (by decide) (by decide) hr.1 f hf
  · exact optField_fits _ (by decide) (by decide) hr.2.1 f hf
  · exact optField_fits _ (by decide) (by decide) hr.scoops_lt f hf
  · exact optField_fits _ (by decide) (by decide) (bit_lt _) f hf

/-- Each present field is written once, so it is the last of its tag and reads back as it was. -/
theorem ofFields_fields {r : Response} (hr : r.InRange) : ofFields r.fields = r := by
  simp only [ofFields, fields, lastNumber_append,
    lastNumber_optField 1 (by decide) (by decide) hr.1,
    lastNumber_optField 2 (by decide) (by decide) hr.2.1,
    lastNumber_optField 3 (by decide) (by decide) hr.scoops_lt,
    lastNumber_optField 4 (by decide) (by decide) (bit_lt _)]
  have h3 := hr.2.2
  clear hr
  rcases r with ⟨c, f, s, a⟩
  -- scoops keep their low 32 bits, which are all they have; the acknowledgement is its bit
  have hs : s.map (· % 4294967296) = s := by
    cases s with
    | none => rfl
    | some v => simpa using Nat.mod_eq_of_lt (h3 v rfl)
  have ha : (a.map bit).map (· != 0) = a := by
    cases a with
    | none => rfl
    | some b => cases b <;> rfl
  simp [hs, ha]

theorem decode_fields {r : Response} (hr : r.InRange) : decode (joinFields r.fields) = .ok r := by
  rw [schema.decode_ok_iff]
  refine ⟨r.fields, fields_fit hr, rfl, ?_⟩
  rw [show (WireMessage.empty : Response) = {} from rfl, foldl_absorbField, ofFields_fields hr]

end Response

namespace Request

/-- The values a request can carry: the time since the last feeding fits 64 bits. -/
def InRange (q : Request) : Prop := ∀ v ∈ q.sinceLastFeedMs, v < 18446744073709551616

instance : DecidablePred InRange := fun q => by
  unfold InRange
  infer_instance

/-- The fields the writer lays out for `q`: its one field, if present. -/
def fields (q : Request) : List RawField := optField 1 q.sinceLastFeedMs

theorem encode_appends (q : Request) : Appends (writeFields q) (joinFields q.fields) := by
  have : writeFields q = writeOpt 1 q.sinceLastFeedMs := by
    rcases q with ⟨o⟩
    cases o <;> rfl
  rw [this]
  exact appends_writeOpt 1 _

theorem length_fields (q : Request) : (joinFields q.fields).length = encodedLen q := by
  rcases q with ⟨o⟩
  cases o <;> simp [fields, encodedLen, optField, length_varintField, sinceLastFeedTag]

theorem encodedLen_le {q : Request} (hq : q.InRange) : encodedLen q ≤ 20 := by
  rcases q with ⟨o⟩
  cases o with
  | none => simp [encodedLen]
  | some v => exact uint64FieldLength_le (by decide) (hq v rfl)

theorem decode_fields {q : Request} (hq : q.InRange) : decode (joinFields q.fields) = .ok q := by
  rw [schema.decode_ok_iff]
  refine ⟨q.fields, optField_fits _ (by decide) (by decide) hq, rfl, ?_⟩
  rw [show (WireMessage.empty : Request) = {} from rfl, foldl_absorbField]
  simp [ofFields, fields, lastNumber_optField 1 (by decide) (by decide) hq]

end Request

/-! ## The round trip -/

/-- **Check-in messages survive the wire.** On any growable sink, writing a response or a
request with values in range succeeds and appends exactly as many bytes as the message
announces, and those bytes decode to the same message, absent fields, zeros and `false`
included. Nested as field `tag`, the message is a length-delimited field whose key reads back
with that tag, whose length prefix reads back as the announced length, and whose payload is that
long and decodes to the message. -/
theorem checkIn_messages_round_trip :
    (∀ (r : Response) (s : Sink), r.InRange → s.capacity = none →
      ∃ bs, encode r s = .ok () { s with bytes := s.bytes ++ bs.toArray } ∧
        bs.length = WireMessage.encodedLen r ∧ decode bs = .ok r) ∧
    (∀ (q : Request) (s : Sink), q.InRange → s.capacity = none →
      ∃ bs, encode q s = .ok () { s with bytes := s.bytes ++ bs.toArray } ∧
        bs.length = WireMessage.encodedLen q ∧ decode bs = .ok q) ∧
    (∀ (tag : Nat) (r : Response) (s : Sink), 1 ≤ tag → tag < 4294967296 → r.InRange →
      s.capacity = none →
      ∃ len payload, writeMessage tag r s = .ok () { s with bytes := s.bytes ++
          (Varint.encode (FieldKey.raw tag .lengthDelimited) ++ len ++ payload).toArray } ∧
        nextKey (Varint.encode (FieldKey.raw tag .lengthDelimited) ++ len ++ payload) =
          .ok (some ⟨tag, .lengthDelimited⟩) (len ++ payload) ∧
        readVarint (len ++ payload) = .ok (WireMessage.encodedLen r) payload ∧
        payload.length = WireMessage.encodedLen r ∧ decode payload = .ok r) ∧
    (∀ (tag : Nat) (q : Request) (s : Sink), 1 ≤ tag → tag < 4294967296 → q.InRange →
      s.capacity = none →
      ∃ len payload, writeMessage tag q s = .ok () { s with bytes := s.bytes ++
          (Varint.encode (FieldKey.raw tag .lengthDelimited) ++ len ++ payload).toArray } ∧
        nextKey (Varint.encode (FieldKey.raw tag .lengthDelimited) ++ len ++ payload) =
          .ok (some ⟨tag, .lengthDelimited⟩) (len ++ payload) ∧
        readVarint (len ++ payload) = .ok (WireMessage.encodedLen q) payload ∧
        payload.length = WireMessage.encodedLen q ∧ decode payload = .ok q) := by
  refine ⟨fun r s hr hs => ?_, fun q s hq hs => ?_, fun tag r s h1 ht hr hs => ?_,
    fun tag q s h1 ht hq hs => ?_⟩
  · exact ⟨_, Response.encode_appends r s hs, Response.length_fields r, Response.decode_fields hr⟩
  · exact ⟨_, Request.encode_appends q s hs, Request.length_fields q, Request.decode_fields hq⟩
  · have hlen := Response.encodedLen_le hr
    obtain ⟨len, hw, hk, hl⟩ := nested_readBack h1 ht r (Response.encode_appends r) (by
      show Response.encodedLen r < _; omega) s hs
    exact ⟨len, _, hw, hk, hl, Response.length_fields r, Response.decode_fields hr⟩
  · have hlen := Request.encodedLen_le hq
    obtain ⟨len, hw, hk, hl⟩ := nested_readBack h1 ht q (Request.encode_appends q) (by
      show Request.encodedLen q < _; omega) s hs
    exact ⟨len, _, hw, hk, hl, Request.length_fields q, Request.decode_fields hq⟩

/-- A request reporting zero milliseconds, nested as field 2: the present zero survives. -/
theorem zero_report_nests_as_field_two :
    Request.InRange { sinceLastFeedMs := some 0 } ∧
    ∃ len payload, writeMessage 2 ({ sinceLastFeedMs := some 0 } : Request) Sink.growable =
        .ok () { Sink.growable with bytes := Sink.growable.bytes ++
          (Varint.encode (FieldKey.raw 2 .lengthDelimited) ++ len ++ payload).toArray } ∧
      nextKey (Varint.encode (FieldKey.raw 2 .lengthDelimited) ++ len ++ payload) =
        .ok (some ⟨2, .lengthDelimited⟩) (len ++ payload) ∧
      readVarint (len ++ payload) = .ok (Request.encodedLen { sinceLastFeedMs := some 0 }) payload ∧
      payload.length = Request.encodedLen { sinceLastFeedMs := some 0 } ∧
      decode payload = .ok ({ sinceLastFeedMs := some 0 } : Request) :=
  ⟨by decide, checkIn_messages_round_trip.2.2.2 2 _ Sink.growable (by decide) (by decide)
    (by decide) rfl⟩

end PetFeeder
