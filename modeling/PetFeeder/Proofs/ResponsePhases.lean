import PetFeeder.Proofs.LineEnds

/-!
# The phases of a response, byte by byte

Feeding a response to the parser one byte at a time (`ResponseParser.feedAll`) goes through
phases, each with a lemma that says what a whole run of bytes does in it:

* the version, before the first space and the first line end (`feedAll_version`);
* the code, three bytes taken verbatim and kept from the counter (`feedAll_code`);
* the counting phase, in the reason or the headers, where only the counter moves until it
  reaches four (`feedAll_counting_none`, `feedAll_counting_found`);
* the body, where every byte is passed on (`feedAll_body`).

Once the parser knows the status it keeps knowing it (`feedAll_status_isSome_mono`).
-/

namespace PetFeeder.Http

namespace ResponseParser

/-- Feeds the bytes one at a time: the parser afterwards, and the body bytes it passed on in
order, as a growable sink collects them. -/
def feedAll (p : ResponseParser) : List UInt8 → ResponseParser × List UInt8
  | [] => (p, [])
  | b :: bs =>
    let r := p.step b
    let t := feedAll r.1 bs
    (t.1, r.2.toList ++ t.2)

@[simp] theorem feedAll_nil (p : ResponseParser) : feedAll p [] = (p, []) := rfl

theorem feedAll_append (p : ResponseParser) (a c : List UInt8) :
    feedAll p (a ++ c) =
      ((feedAll (feedAll p a).1 c).1, (feedAll p a).2 ++ (feedAll (feedAll p a).1 c).2) := by
  induction a generalizing p with
  | nil => simp
  | cons b a ih => simp [feedAll, ih]

theorem feedAll_snoc (p : ResponseParser) (a : List UInt8) (b : UInt8) :
    feedAll p (a ++ [b]) =
      (((feedAll p a).1.step b).1, (feedAll p a).2 ++ ((feedAll p a).1.step b).2.toList) := by
  rw [feedAll_append]
  simp [feedAll]

/-! ## The status, once known, stays known -/

theorem step_status_isSome {p : ResponseParser} (h : p.status.isSome) (b : UInt8) :
    (p.step b).1.status.isSome := by
  unfold step
  split
  · exact h
  · exact h
  · exact h
  · unfold headerByte
    dsimp only
    split
    · rfl
    · split
      · split <;> exact h
      · split <;> exact h

theorem feedAll_status_isSome_mono {p : ResponseParser} {a : List UInt8}
    (h : (feedAll p a).1.status.isSome) (c : List UInt8) : (feedAll p (a ++ c)).1.status.isSome := by
  induction c using List.reverseRecOn with
  | nil => simpa using h
  | append_singleton c b ih =>
    rw [← List.append_assoc, feedAll_snoc]
    exact step_status_isSome ih b

/-! ## The version -/

/-- Before the first space and the first line end, only the counter moves. -/
theorem feedAll_version {v : List UInt8} (hsp : 32 ∉ v) (hle : ∀ w, w <+: v → ¬ EndsLine w) :
    feedAll {} v = ({ lineEnd := lineEndCount v }, []) := by
  induction v using List.reverseRecOn with
  | nil => rfl
  | append_singleton v b ih =>
    have hb : b ≠ 32 := fun h => hsp (by simp [h])
    have hv := ih (fun h => hsp (by simp [h]))
      (fun w hw => hle w (hw.trans (List.prefix_append _ _)))
    -- the counter stays below two over the whole prefix
    have hcount : lineEndCount (v ++ [b]) < 2 :=
      (lineEndCount_below_two_iff _).2 hle _ (List.prefix_refl _)
    rw [lineEndCount_snoc] at hcount
    rw [feedAll_snoc, hv]
    simp [step, headerByte, hb, lineEndCount_snoc, show ¬ 4 ≤ nextLineEnd (lineEndCount v) b by omega,
      show nextLineEnd (lineEndCount v) b ≠ 2 by omega]

/-- The first space opens the code. -/
theorem step_version_space (c : Nat) :
    (({ lineEnd := c } : ResponseParser).step 32) = ({ state := .code 0 }, none) := by
  simp [step, headerByte, nextLineEnd]

/-! ## The code -/

/-- Code bytes are taken verbatim, and the counter does not see them. -/
theorem feedAll_code (p : ResponseParser) (k : Nat) (hk : p.state = .code k) (c : List UInt8)
    (hc : k + c.length ≤ 3) (hne : c ≠ []) :
    feedAll p c =
      ({ p with
          code := p.code ++ c
          state := if k + c.length = 3 then .reason else .code (k + c.length) }, []) := by
  induction c generalizing p k with
  | nil => exact absurd rfl hne
  | cons b c ih =>
    simp only [feedAll, step, hk, capture]
    cases c with
    | nil => simp
    | cons b' c =>
      have hk1 : k + 1 ≠ 3 := by simp at hc; omega
      rw [if_neg hk1, ih _ (k + 1) rfl (by simp at hc ⊢; omega) (by simp)]
      simp only [List.append_assoc, List.singleton_append, List.length_cons, Option.toList_none,
        List.nil_append]
      rw [show k + 1 + (c.length + 1) = k + (c.length + 1 + 1) by omega]

/-! ## Counting to the end of the header block -/

/-- The parser in the reason or the headers, its counter at the count of the bytes `pre` it has
counted, and no status yet. -/
structure Counting (p : ResponseParser) (pre : List UInt8) : Prop where
  state : p.state = .reason ∨ p.state = .headers
  lineEnd : p.lineEnd = lineEndCount pre
  status : p.status = none

/-- Below four, a byte outside the version moves the counter, and at two leaves the status line. -/
theorem headerByte_below_four (p : ResponseParser) (b : UInt8) (h4 : nextLineEnd p.lineEnd b < 4)
    (hv : p.state ≠ .version) :
    p.headerByte b =
      { p with
          lineEnd := nextLineEnd p.lineEnd b
          state := if nextLineEnd p.lineEnd b = 2 ∧ p.state.inStatusLine then .headers else p.state } := by
  unfold headerByte
  simp only [show ¬ 4 ≤ nextLineEnd p.lineEnd b by omega, if_false]
  by_cases h2 : nextLineEnd p.lineEnd b = 2
  · by_cases hs : p.state.inStatusLine <;> simp [h2, hs]
  · simp [h2, hv]

theorem Counting.step_eq {p : ResponseParser} {pre : List UInt8} (hp : Counting p pre) (b : UInt8) :
    p.step b = (p.headerByte b, none) := by
  rcases hp.state with h | h <;> simp [ResponseParser.step, h]

theorem Counting.step {p : ResponseParser} {pre : List UInt8} (hp : Counting p pre) (b : UInt8)
    (h4 : lineEndCount (pre ++ [b]) < 4) :
    Counting (p.step b).1 (pre ++ [b]) ∧ (p.step b).2 = none ∧ (p.step b).1.code = p.code := by
  have hv : p.state ≠ .version := by rcases hp.state with h | h <;> simp [h]
  rw [lineEndCount_snoc, ← hp.lineEnd] at h4
  rw [hp.step_eq b, headerByte_below_four p b h4 hv]
  refine ⟨⟨?_, ?_, hp.status⟩, rfl, rfl⟩
  · -- the status line may end here; the headers go on
    dsimp only
    split
    · exact .inr rfl
    · exact hp.state
  · simp [lineEndCount_snoc, hp.lineEnd]

/-- **The header block not yet over.** While no prefix of what has been counted ends the
header block, the parser only counts: no status, no body, and the code as it was. -/
theorem feedAll_counting_none {p : ResponseParser} {pre : List UInt8} (hp : Counting p pre)
    {x : List UInt8} (hx : ∀ v, v <+: pre ++ x → ¬ EndsHeaders v) :
    Counting (feedAll p x).1 (pre ++ x) ∧ (feedAll p x).2 = [] ∧ (feedAll p x).1.code = p.code := by
  induction x using List.reverseRecOn with
  | nil => simpa using hp
  | append_singleton x b ih =>
    obtain ⟨hc, hb, hcode⟩ :=
      ih fun v hv => hx v (hv.trans ((List.prefix_append_right_inj pre).2 (List.prefix_append x [b])))
    have h4 : lineEndCount (pre ++ x ++ [b]) < 4 :=
      (lineEndCount_below_four_iff _).2 (by simpa only [List.append_assoc] using hx) _
        (List.prefix_refl _)
    obtain ⟨hc', hout, hcode'⟩ := hc.step b h4
    rw [feedAll_snoc]
    exact ⟨by simpa only [List.append_assoc] using hc', by simp [hb, hout], by rw [hcode', hcode]⟩

theorem feedAll_body {q : ResponseParser} (hq : q.state = .body) (y : List UInt8) :
    feedAll q y = (q, y) := by
  induction y with
  | nil => rfl
  | cons b y ih => simp [feedAll, step_body q hq b, ih]

/-- At four the headers are over: the status is read off the code and the body begins. -/
theorem headerByte_four {p : ResponseParser} {b : UInt8} (h4 : 4 ≤ nextLineEnd p.lineEnd b) :
    (p.headerByte b).status = some (Status.ofCode p.code) ∧ (p.headerByte b).state = .body := by
  simp [headerByte, h4]

/-- **The end of the header block.** At the first byte that ends it, the status is read off the
code, and every byte after it is passed on as body. -/
theorem feedAll_counting_found {p : ResponseParser} {pre : List UInt8} (hp : Counting p pre)
    {h : List UInt8} {b : UInt8} (hend : EndsHeaders (pre ++ h ++ [b]))
    (hbefore : ∀ v, v <+: pre ++ h → ¬ EndsHeaders v) (y : List UInt8) :
    (feedAll p (h ++ [b] ++ y)).1.status = some (Status.ofCode p.code) ∧
      (feedAll p (h ++ [b] ++ y)).2 = y := by
  obtain ⟨hc, hb, hcode⟩ := feedAll_counting_none hp hbefore
  -- every shorter prefix stays below four, so the counter reaches four at `b`
  have hbelow := (lineEndCount_below_four_iff _).2 hbefore
  have h4 : 4 ≤ lineEndCount (pre ++ h ++ [b]) :=
    (four_le_lineEndCount_iff fun v hv hne =>
      hbelow v ((List.prefix_concat_iff.1 hv).resolve_left hne)).2 hend
  rw [lineEndCount_snoc, ← hc.lineEnd] at h4
  obtain ⟨hst, hbody⟩ := headerByte_four h4
  rw [feedAll_append, feedAll_snoc, hc.step_eq b, feedAll_body hbody]
  simp [hst, hcode, hb]

end ResponseParser

end PetFeeder.Http
