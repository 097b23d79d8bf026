import PetFeeder.Proofs.DecodeGrammar

/-!
# Decoding check-in messages

The check-in response and request read only varint fields, so the decoder's grammar applies to
both (`Response.schema`, `Request.schema`). What a run of fields decodes to is read off the
run itself: for each known tag, the number of the last field with that tag
(`Wire.lastNumber`), whatever the order of the fields and whatever unknown fields lie between.

* `VarintSchema.foldl_reads` says so once for any message member filled by one tag;
* `Response.decode_iff` and `Request.decode_iff` put it together with the grammar.
-/

namespace PetFeeder

open Wire

/-- The number of the last field among `fs` with tag `t`, if there is one. -/
def Wire.lastNumber (fs : List RawField) (t : Nat) : Option Nat :=
  ((fs.filter (·.tag == t)).getLast?).map RawField.number

namespace Wire

@[simp] theorem lastNumber_nil (t : Nat) : lastNumber [] t = none := rfl

/-- A field in front matters only when no later field has its tag. -/
theorem lastNumber_cons (f : RawField) (fs : List RawField) (t : Nat) :
    lastNumber (f :: fs) t = (lastNumber fs t).or (if f.tag = t then some f.number else none) := by
  unfold lastNumber
  by_cases h : f.tag = t
  · rw [List.filter_cons_of_pos (by simpa using h), List.getLast?_cons, if_pos h]
    cases (fs.filter (·.tag == t)).getLast? <;> rfl
  · rw [List.filter_cons_of_neg (by simpa using h), if_neg h, Option.or_none]

/-- **Last field wins.** A member of the message that only fields of tag `i` fill, each with
`g` of its number, ends up as `g` of the last such field's number, or as it was if there is
none. -/
theorem VarintSchema.foldl_reads {α β : Type} [WireMessage α] (S : VarintSchema α)
    (p : α → Option β) (i : Nat) (g : Nat → β) (hi : S.knows i = true)
    (hp : ∀ m t v, p (S.absorb m t v) = if t = i then some (g v) else p m)
    (fs : List RawField) (m : α) :
    p (fs.foldl S.absorbField m) = ((lastNumber fs i).map g).or (p m) := by
  induction fs generalizing m with
  | nil => simp
  | cons f fs ih =>
    -- what one field does to the member, known or not
    have hstep : p (S.absorbField m f) = if f.tag = i then some (g f.number) else p m := by
      unfold VarintSchema.absorbField
      split
      · exact hp m f.tag f.number
      · next hk =>
        have : f.tag ≠ i := fun h => hk (h ▸ hi)
        rw [if_neg this]
    rw [List.foldl_cons, ih, hstep, lastNumber_cons, Option.map_or, Option.or_assoc]
    split <;> rfl

end Wire

/-! ## The response -/

namespace Response

/-- The tags the response reads: 1 to 4. -/
def knownTag (t : Nat) : Bool := 1 ≤ t && t ≤ 4

/-- The response after a varint field of tag `t` and number `v`. -/
def absorb (r : Response) (t v : Nat) : Response where
  checkinIntervalMs := if t = 1 then some v else r.checkinIntervalMs
  feedIntervalMs := if t = 2 then some v else r.feedIntervalMs
  scoopsToFeed := if t = 3 then some (v % 4294967296) else r.scoopsToFeed
  feedingAck := if t = 4 then some (v != 0) else r.feedingAck

/-- The response reads every field it knows as a varint. -/
def schema : VarintSchema Response where
  knows := knownTag
  absorb := absorb
  merge_known := by
    intro r key hk
    have : key.tag = 1 ∨ key.tag = 2 ∨ key.tag = 3 ∨ key.tag = 4 := by
      simp only [knownTag, Bool.and_eq_true, decide_eq_true_eq] at hk
      omega
    show merge r key = _
    rcases this with h | h | h | h <;>
      simp only [merge, h, readUInt32, readBool, bind_pure_comp, Functor.map_map] <;>
      rfl
  merge_unknown := by
    intro r key hk
    have : ¬ (1 ≤ key.tag ∧ key.tag ≤ 4) := by simpa [knownTag] using hk
    obtain ⟨t, w⟩ := key
    show merge r ⟨t, w⟩ = none
    rcases t with _ | _ | _ | _ | _ | t <;> simp_all [merge]

/-- The response a run of fields spells. -/
def ofFields (fs : List RawField) : Response where
  checkinIntervalMs := lastNumber fs 1
  feedIntervalMs := lastNumber fs 2
  scoopsToFeed := (lastNumber fs 3).map (· % 4294967296)
  feedingAck := (lastNumber fs 4).map (· != 0)

theorem foldl_absorbField (fs : List RawField) : fs.foldl schema.absorbField {} = ofFields fs := by
  have h1 := schema.foldl_reads checkinIntervalMs 1 id rfl (fun r t v => by simp [schema, absorb]) fs {}
  have h2 := schema.foldl_reads feedIntervalMs 2 id rfl (fun r t v => by simp [schema, absorb]) fs {}
  have h3 := schema.foldl_reads scoopsToFeed 3 (· % 4294967296) rfl
    (fun r t v => by simp [schema, absorb]) fs {}
  have h4 := schema.foldl_reads feedingAck 4 (· != 0) rfl (fun r t v => by simp [schema, absorb]) fs {}
  cases h : fs.foldl schema.absorbField {}
  simp_all [ofFields]

end Response

/-! ## The request -/

namespace Request

/-- The tag the request reads: 1. -/
def knownTag (t : Nat) : Bool := t == 1

/-- The request after a varint field of tag `t` and number `v`. -/
def absorb (q : Request) (t v : Nat) : Request :=
  if t = 1 then { sinceLastFeedMs := some v } else q

/-- The request reads its one field as a varint. -/
def schema : VarintSchema Request where
  knows := knownTag
  absorb := absorb
  merge_known := by
    intro q key hk
    have h : key.tag = 1 := by simpa [knownTag] using hk
    show merge q key = _
    simp only [merge, sinceLastFeedTag, h, if_true, bind_pure_comp]
    rfl
  merge_unknown := by
    intro q key hk
    have h : key.tag ≠ 1 := by simpa [knownTag] using hk
    show merge q key = none
    simp only [merge, sinceLastFeedTag, h, if_false]

/-- The request a run of fields spells. -/
def ofFields (fs : List RawField) : Request where
  sinceLastFeedMs := lastNumber fs 1

theorem foldl_absorbField (fs : List RawField) : fs.foldl schema.absorbField {} = ofFields fs := by
  have h := schema.foldl_reads sinceLastFeedMs 1 id rfl
    (fun q t v => by by_cases ht : t = 1 <;> simp [schema, absorb, ht]) fs {}
  cases hq : fs.foldl schema.absorbField {}
  simp_all [ofFields]

end Request

/-! ## Decoding, over every input -/

/-- **What the check-in messages decode.** For every byte string, the response decodes to `r`
exactly when the bytes are a run of fields that fit it (well-formed keys and values, and a varint
for each of the tags 1 to 4), `r` holding for each of those tags the last such field's number;
it fails with `e` exactly when the bytes are such a run followed by bytes that break the grammar
with `e`. The request decodes the same way with tag 1 as its only field. -/
theorem checkIn_decode_follows_field_grammar :
    (∀ (bs : List UInt8) (r : Response), decode bs = .ok r ↔
      ∃ fs, (∀ f ∈ fs, f.Fits Response.knownTag) ∧ bs = joinFields fs ∧
        r = Response.ofFields fs) ∧
    (∀ (bs : List UInt8) (e : DecodeError), (decode bs : Except DecodeError Response) = .error e ↔
      ∃ fs rest, (∀ f ∈ fs, f.Fits Response.knownTag) ∧ bs = joinFields fs ++ rest ∧
        Breaks Response.knownTag rest e) ∧
    (∀ (bs : List UInt8) (q : Request), decode bs = .ok q ↔
      ∃ fs, (∀ f ∈ fs, f.Fits Request.knownTag) ∧ bs = joinFields fs ∧
        q = Request.ofFields fs) ∧
    (∀ (bs : List UInt8) (e : DecodeError), (decode bs : Except DecodeError Request) = .error e ↔
      ∃ fs rest, (∀ f ∈ fs, f.Fits Request.knownTag) ∧ bs = joinFields fs ++ rest ∧
        Breaks Request.knownTag rest e) := by
  refine ⟨fun bs r => ?_, Response.schema.decode_error_iff, fun bs q => ?_,
    Request.schema.decode_error_iff⟩
  · rw [Response.schema.decode_ok_iff]
    rw [show (WireMessage.empty : Response) = {} from rfl]
    simp only [Response.foldl_absorbField]
    exact Iff.rfl
  · rw [Request.schema.decode_ok_iff]
    rw [show (WireMessage.empty : Request) = {} from rfl]
    simp only [Request.foldl_absorbField]
    exact Iff.rfl

end PetFeeder
