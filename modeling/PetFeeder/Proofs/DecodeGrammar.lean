import PetFeeder.Proofs.FieldGrammar
import PetFeeder.CheckIn.Request
import PetFeeder.CheckIn.Response

/-!
# What the decoder accepts

Over arbitrary bytes, not only over what the writer produces: a message whose known fields are
all varints decodes `bs`

* to a message exactly when `bs` is a run of fields that fit it; the message is then the empty
  one with every field absorbed in order, so the last field of each known tag wins
  (`VarintSchema.decode_ok_iff`);
* to an error exactly when `bs` is such a run followed by bytes that break, and the error is
  the one those bytes are reported with (`VarintSchema.decode_error_iff`).

The decoder rounds once per field and has one round more than the input has bytes; every field
takes at least one byte, so it never runs out (`decodeFrom_total`). The check-in response and
request are such messages (`Response.schema`, `Request.schema`), and the message a run of fields
spells is read off it field by field (`Response.ofFields`, `Request.ofFields`).
-/

namespace PetFeeder.Wire

/-- The bytes of the fields `fs`, laid end to end. -/
def joinFields (fs : List RawField) : List UInt8 := (fs.map RawField.bytes).flatten

@[simp] theorem joinFields_nil : joinFields [] = [] := rfl

@[simp] theorem joinFields_cons (f : RawField) (fs : List RawField) :
    joinFields (f :: fs) = f.bytes ++ joinFields fs := rfl

/-- A field that fits takes at least one byte: its key. -/
theorem RawField.length_pos {knows : Nat → Bool} {f : RawField} (hf : f.Fits knows) :
    0 < f.bytes.length := by
  obtain ⟨w, hn, -, -⟩ := hf
  have := hn.1.1.ne_nil
  simp only [RawField.bytes, List.length_append]
  cases h : f.keyBytes with
  | nil => exact absurd h this
  | cons b bs => simp

theorem length_le_joinFields {knows : Nat → Bool} {fs : List RawField}
    (hfs : ∀ f ∈ fs, f.Fits knows) : fs.length ≤ (joinFields fs).length := by
  induction fs with
  | nil => simp
  | cons f fs ih =>
    have hf := RawField.length_pos (List.forall_mem_cons.1 hfs).1
    have := ih (List.forall_mem_cons.1 hfs).2
    simp only [List.length_cons, joinFields_cons, List.length_append]
    omega

namespace VarintSchema

variable {α : Type} [WireMessage α] (S : VarintSchema α)

/-- **A run of fields that fit.** With a round for each, the decoder absorbs them all. -/
theorem decodeFrom_fields {fs : List RawField} (hfs : ∀ f ∈ fs, f.Fits S.knows) (m : α)
    {fuel : Nat} (hfuel : fs.length < fuel) :
    decodeFrom m fuel (joinFields fs) = .ok (fs.foldl S.absorbField m) := by
  induction fs generalizing m fuel with
  | nil =>
    obtain ⟨fuel, rfl⟩ : ∃ k, fuel = k + 1 := ⟨fuel - 1, by omega⟩
    exact decodeFrom_nil m fuel
  | cons f fs ih =>
    obtain ⟨fuel, rfl⟩ : ∃ k, fuel = k + 1 := ⟨fuel - 1, by omega⟩
    rw [joinFields_cons, S.decodeFrom_fits (List.forall_mem_cons.1 hfs).1]
    exact ih (List.forall_mem_cons.1 hfs).2 _ (by simp at hfuel; omega)

/-- **A run of fields, then bytes that break.** The decoder reaches them and fails with their
error. -/
theorem decodeFrom_fields_breaks {fs : List RawField} (hfs : ∀ f ∈ fs, f.Fits S.knows)
    {rest : List UInt8} {e : DecodeError} (hb : Breaks S.knows rest e) (m : α) {fuel : Nat}
    (hfuel : fs.length < fuel) : decodeFrom m fuel (joinFields fs ++ rest) = .error e := by
  induction fs generalizing m fuel with
  | nil =>
    obtain ⟨fuel, rfl⟩ : ∃ k, fuel = k + 1 := ⟨fuel - 1, by omega⟩
    exact S.decodeFrom_breaks hb m fuel
  | cons f fs ih =>
    obtain ⟨fuel, rfl⟩ : ∃ k, fuel = k + 1 := ⟨fuel - 1, by omega⟩
    rw [joinFields_cons, List.append_assoc, S.decodeFrom_fits (List.forall_mem_cons.1 hfs).1]
    exact ih (List.forall_mem_cons.1 hfs).2 _ (by simp at hfuel; omega)

/-- **The decoder never runs out of rounds.** With more rounds than bytes, every input is a run
of fitting fields the decoder absorbs, or such a run followed by bytes that break, on which it
fails. The induction is on the rounds left; each field takes a byte at least. -/
theorem decodeFrom_total (fuel : Nat) : ∀ (m : α) (bs : List UInt8), bs.length < fuel →
    (∃ fs, (∀ f ∈ fs, f.Fits S.knows) ∧ bs = joinFields fs ∧
        decodeFrom m fuel bs = .ok (fs.foldl S.absorbField m)) ∨
      ∃ fs rest e, (∀ f ∈ fs, f.Fits S.knows) ∧ bs = joinFields fs ++ rest ∧
        Breaks S.knows rest e ∧ decodeFrom m fuel bs = .error e := by
  induction fuel with
  | zero => intro m bs h; omega
  | succ fuel ih =>
    intro m bs hlen
    by_cases hne : bs = []
    · subst hne
      exact .inl ⟨[], by simp, rfl, decodeFrom_nil m fuel⟩
    rcases fits_or_breaks S.knows hne with ⟨f, rest, hf, rfl⟩ | ⟨e, hb⟩
    · -- a field that fits: absorb it and go on with what follows
      have hpos := RawField.length_pos hf
      rw [S.decodeFrom_fits hf]
      have hrest : rest.length < fuel := by simp at hlen; omega
      rcases ih (S.absorbField m f) rest hrest with ⟨fs, hfs, rfl, hok⟩ | ⟨fs, r, e, hfs, rfl, hb, herr⟩
      · exact .inl ⟨f :: fs, List.forall_mem_cons.2 ⟨hf, hfs⟩, rfl, hok⟩
      · exact .inr ⟨f :: fs, r, e, List.forall_mem_cons.2 ⟨hf, hfs⟩, by simp, hb, herr⟩
    · exact .inr ⟨[], bs, e, by simp, rfl, hb, S.decodeFrom_breaks hb m fuel⟩

/-- **Decoding succeeds on exactly the runs of fitting fields**, and gives the empty message with
the fields absorbed in order. -/
theorem decode_ok_iff (bs : List UInt8) (r : α) :
    decode bs = .ok r ↔
      ∃ fs, (∀ f ∈ fs, f.Fits S.knows) ∧ bs = joinFields fs ∧
        r = fs.foldl S.absorbField WireMessage.empty := by
  constructor
  · intro h
    rcases S.decodeFrom_total (bs.length + 1) WireMessage.empty bs (by omega) with
      ⟨fs, hfs, rfl, hok⟩ | ⟨fs, rest, e, -, -, -, herr⟩
    · refine ⟨fs, hfs, rfl, ?_⟩
      rw [decode, hok] at h
      exact (Except.ok.inj h).symm
    · rw [decode, herr] at h
      cases h
  · rintro ⟨fs, hfs, rfl, rfl⟩
    exact S.decodeFrom_fields hfs _ (Nat.lt_succ_of_le (length_le_joinFields hfs))

/-- **Decoding fails on exactly the runs of fitting fields followed by bytes that break**, with
the error those bytes are reported with. -/
theorem decode_error_iff (bs : List UInt8) (e : DecodeError) :
    (decode bs : Except DecodeError α) = .error e ↔
      ∃ fs rest, (∀ f ∈ fs, f.Fits S.knows) ∧ bs = joinFields fs ++ rest ∧
        Breaks S.knows rest e := by
  constructor
  · intro h
    rcases S.decodeFrom_total (bs.length + 1) WireMessage.empty bs (by omega) with
      ⟨fs, -, -, hok⟩ | ⟨fs, rest, e', hfs, rfl, hb, herr⟩
    · rw [decode, hok] at h
      cases h
    · rw [decode, herr] at h
      cases h
      exact ⟨fs, rest, hfs, rfl, hb⟩
  · rintro ⟨fs, rest, hfs, rfl, hb⟩
    have := length_le_joinFields hfs
    exact S.decodeFrom_fields_breaks hfs hb _ (by simp; omega)

end VarintSchema

end PetFeeder.Wire
