import PetFeeder.Proofs.ResponsePhases

/-!
# Where a response's header block ends

A response fed byte by byte to a fresh parser and then finished. Its status line opens one of
two ways (`StatusOpening`): a space before any line end, whose next three bytes are the code and
are kept from the counter; or a line end first, and then there is no code. Either way the
header block ends at the first counted CR LF CR LF whose first CR follows an even number of
carriage returns in a row (`EndsHeaders`), not at the first CR LF CR LF as such: a carriage
return at an odd count resets the counter.

Main statement: `response_status_and_body` (the status `finish` gives, the body, and when the
status becomes known, for every byte sequence).
-/

namespace PetFeeder.Http

open ResponseParser

/-- The first prefix with a property, when one has it. The induction is on `u` from the end. -/
theorem first_prefix_exists {P : List UInt8 → Prop} {u : List UInt8}
    (h : ∃ v, v <+: u ∧ P v) : ∃ v, v <+: u ∧ P v ∧ ∀ w, w <+: v → P w → w = v := by
  induction u using List.reverseRecOn with
  | nil =>
    obtain ⟨v, hv, hp⟩ := h
    rw [List.prefix_nil.1 hv] at hp
    exact ⟨[], List.prefix_refl _, hp, fun w hw _ => List.prefix_nil.1 hw⟩
  | append_singleton u b ih =>
    by_cases hu : ∃ v, v <+: u ∧ P v
    · obtain ⟨v, hv, hp, hfirst⟩ := ih hu
      exact ⟨v, hv.trans (List.prefix_append _ _), hp, hfirst⟩
    · -- no prefix of `u` has it, so the whole of `u ++ [b]` is the first
      obtain ⟨v, hv, hp⟩ := h
      rcases List.prefix_concat_iff.1 hv with rfl | hv
      · refine ⟨_, List.prefix_refl _, hp, fun w hw hpw => ?_⟩
        rcases List.prefix_concat_iff.1 hw with rfl | hw
        · rfl
        · exact absurd ⟨w, hw, hpw⟩ hu
      · exact absurd ⟨v, hv, hp⟩ hu

/-- A prefix shorter than the first one with a property does not have it. -/
theorem not_of_first {P : List UInt8 → Prop} {e w : List UInt8}
    (hfirst : ∀ v, v <+: e → P v → v = e) (hw : w <+: e) (hlt : w.length < e.length) : ¬ P w :=
  fun hp => by
    have := congrArg List.length (hfirst w hw hp)
    omega

/-! ## Line ends and the bytes they end with -/

theorem EndsLine.eq_snoc {e : List UInt8} (h : EndsLine e) : ∃ e', e = e' ++ [10] := by
  obtain ⟨q, rfl, -⟩ := h
  exact ⟨q ++ [13], by simp⟩

/-- The header block ends with a line end two bytes before its end. -/
theorem EndsHeaders.endsLine {u : List UInt8} (h : EndsHeaders u) :
    ∃ e, e <+: u ∧ e.length + 2 = u.length ∧ EndsLine e := by
  obtain ⟨q, rfl, hq⟩ := h
  exact ⟨q ++ [13, 10], ⟨[13, 10], by simp⟩, by simp, q, rfl, hq⟩

theorem EndsHeaders.eq_snoc {u : List UInt8} (h : EndsHeaders u) : ∃ u', u = u' ++ [10] := by
  obtain ⟨q, rfl, -⟩ := h
  exact ⟨q ++ [13, 10, 13], by simp⟩

/-- Where no line has ended, the header block has not either. -/
theorem not_endsHeaders_of_no_line {v : List UInt8} (hv : ∀ w, w <+: v → ¬ EndsLine w) :
    ∀ w, w <+: v → ¬ EndsHeaders w := by
  intro w hw he
  obtain ⟨e, he, -, hl⟩ := he.endsLine
  exact hv e (he.trans hw) hl

/-! ## How the status line opens -/

/-- How the status line of `s` opens: the bytes `pre` the counter has seen before the rest `x`
of the response, with the code between them. -/
inductive StatusOpening : List UInt8 → List UInt8 → List UInt8 → List UInt8 → Prop
  /-- A space before any line end: the three bytes after it are the code, which the counter
  skips. -/
  | code {v c x : List UInt8} : 32 ∉ v → (∀ w, w <+: v → ¬ EndsLine w) → c.length = 3 →
      StatusOpening (v ++ 32 :: (c ++ x)) (v ++ [32]) c x
  /-- Every space comes after a line end: there is no code, and the counter sees every byte. -/
  | noCode {s : List UInt8} : (∀ v w, s = v ++ 32 :: w → ∃ e, e <+: v ∧ EndsLine e) →
      StatusOpening s [] [] s

/-- Up to the space and the code, the parser has counted the version and the space. -/
theorem feedAll_opening {v c : List UInt8} (hsp : 32 ∉ v) (hv : ∀ w, w <+: v → ¬ EndsLine w)
    (hc : c.length ≤ 3) :
    feedAll {} (v ++ [32] ++ c) =
      ({ state := if c.length = 3 then .reason else .code c.length, code := c }, []) := by
  rw [feedAll_append, feedAll_snoc, feedAll_version hsp hv, step_version_space]
  cases c with
  | nil => rfl
  | cons b c =>
    rw [feedAll_code { state := .code 0 } 0 rfl (b :: c) (by simpa using hc) (by simp)]
    simp

/-- A first line end without a space before it ends the status line with the counter at two. -/
theorem feedAll_first_line {e : List UInt8} (hl : EndsLine e)
    (hfirst : ∀ w, w <+: e → EndsLine w → w = e) (hsp : 32 ∉ e) :
    feedAll {} e = ({ state := .headers, lineEnd := 2 }, []) ∧ lineEndCount e = 2 := by
  obtain ⟨e', rfl⟩ := hl.eq_snoc
  -- before its last byte no line has ended
  have hnone : ∀ w, w <+: e' → ¬ EndsLine w := fun w hw =>
    not_of_first hfirst (hw.trans (List.prefix_append _ _)) (by have := hw.length_le; simp; omega)
  have hbelow := (lineEndCount_below_two_iff e').2 hnone
  have h2 : lineEndCount (e' ++ [10]) = 2 := by
    have hge := (two_le_lineEndCount_iff fun w hw hne =>
      hbelow w ((List.prefix_concat_iff.1 hw).resolve_left hne)).2 hl
    have := lineEndCount_snoc_le e' 10
    have := hbelow e' (List.prefix_refl _)
    omega
  refine ⟨?_, h2⟩
  rw [feedAll_snoc, feedAll_version (fun h => hsp (by simp [h])) hnone]
  rw [lineEndCount_snoc] at h2
  simp [ResponseParser.step, headerByte, h2, ParseState.inStatusLine]

namespace StatusOpening

variable {s pre code x : List UInt8}

theorem eq (ho : StatusOpening s pre code x) : s = pre ++ code ++ x := by
  cases ho <;> simp

/-- What the counter has seen before the rest does not end the header block. -/
theorem not_endsHeaders_pre (ho : StatusOpening s pre code x) :
    ∀ w, w <+: pre → ¬ EndsHeaders w := by
  cases ho with
  | code _ hv _ =>
    intro w hw he
    rcases List.prefix_concat_iff.1 hw with rfl | hw
    · obtain ⟨u, hu⟩ := he.eq_snoc
      simpa using congrArg List.getLast? hu
    · exact not_endsHeaders_of_no_line hv w hw he
  | noCode _ =>
    intro w hw he
    obtain ⟨u, hu⟩ := he.eq_snoc
    rw [List.prefix_nil.1 hw] at hu
    simp at hu

/-- With no code, the first line end has no space in it. -/
theorem first_line_no_space (hs : ∀ v w, s = v ++ 32 :: w → ∃ e, e <+: v ∧ EndsLine e)
    {e : List UInt8} (he : e <+: s) (hfirst : ∀ w, w <+: e → EndsLine w → w = e) : 32 ∉ e := by
  intro hmem
  obtain ⟨a, b, rfl⟩ := List.append_of_mem hmem
  obtain ⟨t, rfl⟩ := he
  obtain ⟨e', he', hl⟩ := hs a (b ++ t) (by simp)
  exact not_of_first hfirst (he'.trans (List.prefix_append _ _))
    (by have := he'.length_le; simp; omega) hl

/-- With no code and a line end somewhere, the parser reaches the headers at the first one. -/
theorem noCode_start (hs : ∀ v w, s = v ++ 32 :: w → ∃ e, e <+: v ∧ EndsLine e)
    (hl : ∃ e, e <+: s ∧ EndsLine e) :
    ∃ e, e <+: s ∧ EndsLine e ∧ (∀ w, w <+: e → EndsLine w → w = e) ∧
      feedAll {} e = ({ state := .headers, lineEnd := 2 }, []) ∧
      Counting { state := .headers, lineEnd := 2 } e := by
  obtain ⟨e, he, hle, hfirst⟩ := first_prefix_exists hl
  obtain ⟨hfeed, hcount⟩ := feedAll_first_line hle hfirst (first_line_no_space hs he hfirst)
  exact ⟨e, he, hle, hfirst, hfeed, ⟨.inr rfl, hcount.symm, rfl⟩⟩

/-- A first end of the header block is past every byte it does not cover: its shorter prefixes do
not end it. -/
theorem before_first {u : List UInt8} {h : List UInt8} {b : UInt8}
    (hfirst : ∀ v, v <+: u ++ h ++ [b] → EndsHeaders v → v = u ++ h ++ [b]) :
    ∀ v, v <+: u ++ h → ¬ EndsHeaders v := fun v hv =>
  not_of_first hfirst (hv.trans (List.prefix_append _ _))
    (by have := hv.length_le; simp at this ⊢; omega)

/-- Past the space and the code, the parser counts from the space on. -/
theorem counting_after_code {v c : List UInt8} (hc : c.length = 3) :
    Counting (if c.length = 3 then { state := .reason, code := c } else
      { state := .code c.length, code := c }) (v ++ [32]) := by
  rw [if_pos hc]
  exact ⟨.inl rfl, by simp [lineEndCount_snoc, nextLineEnd], rfl⟩

/-- **The header block ends.** Where the rest of the response holds the first end of the header
block, the parser knows the status from the code, and the body is what follows that end. -/
theorem feedAll_ends (ho : StatusOpening s pre code x) {hdr y : List UInt8} (hx : x = hdr ++ y)
    (hend : EndsHeaders (pre ++ hdr))
    (hfirst : ∀ v, v <+: pre ++ hdr → EndsHeaders v → v = pre ++ hdr) :
    (feedAll {} s).1.status = some (Status.ofCode code) ∧ (feedAll {} s).2 = y := by
  -- the counted bytes before the rest do not end the block, so it ends inside the rest
  rcases List.eq_nil_or_concat hdr with rfl | ⟨h, b, rfl⟩
  · exact absurd hend (ho.not_endsHeaders_pre _ (by simp))
  rw [List.concat_eq_append] at hend hfirst hx
  rw [← List.append_assoc] at hend hfirst
  have hbefore := before_first hfirst
  subst hx
  cases ho with
  | @code v _ _ hsp hv hc =>
    rw [show v ++ 32 :: (code ++ (h ++ [b] ++ y)) = v ++ [32] ++ code ++ (h ++ [b] ++ y) by simp,
      feedAll_append, feedAll_opening hsp hv hc.le]
    obtain ⟨h1, h2⟩ := feedAll_counting_found (counting_after_code hc) hend hbefore y
    rw [if_pos hc] at h1 h2 ⊢
    exact ⟨h1, by simpa using h2⟩
  | noCode hs =>
    simp only [List.nil_append] at hend hbefore ⊢
    obtain ⟨e₀, he₀, hlen₀, hl₀⟩ := hend.endsLine
    have hs' : e₀ <+: h ++ [b] ++ y := he₀.trans (List.prefix_append _ _)
    obtain ⟨e, he, hle, hfirstE, hfeed, hcount⟩ := noCode_start hs ⟨e₀, hs', hl₀⟩
    -- the first line end comes no later than the one two bytes before the block's end
    have hee₀ : e <+: e₀ := by
      rcases List.prefix_or_prefix_of_prefix he hs' with h' | h'
      · exact h'
      · rw [hfirstE e₀ h' hl₀]
    have heh : e <+: h := by
      have hlen := hee₀.length_le
      rcases List.prefix_concat_iff.1 (hee₀.trans he₀) with rfl | h'
      · simp at hlen₀ hlen
        omega
      · exact h'
    obtain ⟨h', rfl⟩ := heh
    rw [List.append_assoc, List.append_assoc, feedAll_append, hfeed]
    obtain ⟨h1, h2⟩ := feedAll_counting_found hcount hend hbefore y
    exact ⟨by simpa using h1, by simpa using h2⟩

/-- **The header block does not end.** Where no prefix of what the counter sees ends the header
block, the parser never knows a status and passes nothing on. -/
theorem feedAll_never_ends (ho : StatusOpening s pre code x) (hx : ∀ v, v <+: pre ++ x → ¬ EndsHeaders v) :
    (feedAll {} s).1.status = none ∧ (feedAll {} s).2 = [] := by
  cases ho with
  | @code v _ _ hsp hv hc =>
    rw [show v ++ 32 :: (code ++ x) = v ++ [32] ++ code ++ x by simp, feedAll_append,
      feedAll_opening hsp hv hc.le]
    obtain ⟨h1, h2, -⟩ := feedAll_counting_none (counting_after_code hc) hx
    rw [if_pos hc] at h1 h2 ⊢
    exact ⟨h1.status, by simpa using h2⟩
  | noCode hs =>
    simp only [List.nil_append] at hx
    by_cases hl : ∃ e, e <+: s ∧ EndsLine e
    · obtain ⟨e, ⟨t, rfl⟩, -, -, hfeed, hcount⟩ := noCode_start hs hl
      rw [feedAll_append, hfeed]
      obtain ⟨h1, h2, -⟩ := feedAll_counting_none hcount hx
      exact ⟨h1.status, by simpa using h2⟩
    · -- no line ends, so no space either: the whole response is the version
      have hsp : 32 ∉ s := fun hmem => by
        obtain ⟨a, b, rfl⟩ := List.append_of_mem hmem
        obtain ⟨e, he, hle⟩ := hs a b rfl
        exact hl ⟨e, he.trans (List.prefix_append _ _), hle⟩
      rw [feedAll_version hsp fun w hw hlw => hl ⟨w, hw, hlw⟩]
      exact ⟨rfl, rfl⟩

/-- Cutting the rest of the response keeps how its status line opens. -/
theorem cut_rest {x₁ x₂ : List UInt8} (ho : StatusOpening s pre code (x₁ ++ x₂)) :
    StatusOpening (pre ++ code ++ x₁) pre code x₁ := by
  cases ho with
  | @code v _ _ hsp hv hc =>
    rw [show v ++ [32] ++ code ++ x₁ = v ++ 32 :: (code ++ x₁) by simp]
    exact .code hsp hv hc
  | noCode hs =>
    refine .noCode fun v w hvw => hs v (w ++ x₂) ?_
    simp only [List.nil_append] at hvw
    simp [hvw]

end StatusOpening

/-- Where no line end precedes it, the space before which all bytes are version bytes. -/
theorem prefix_of_first_space {e v t w : List UInt8} (he : 32 ∉ e)
    (h : e ++ 32 :: t = v ++ 32 :: w) : e <+: v := by
  rcases List.append_eq_append_iff.1 h with ⟨a, rfl, -⟩ | ⟨c, rfl, hc⟩
  · exact List.prefix_append _ _
  · cases c with
    | nil => simp
    | cons d c =>
      -- a space inside `e` would come before the first one
      simp only [List.cons_append, List.cons.injEq] at hc
      exact absurd (by simp [hc.1]) he

/-- **Every response opens one of the two ways**, or ends inside the code. -/
theorem opening_or_cut (s : List UInt8) :
    (∃ pre code x, StatusOpening s pre code x) ∨
      ∃ v c, s = v ++ 32 :: c ∧ 32 ∉ v ∧ (∀ w, w <+: v → ¬ EndsLine w) ∧ c.length < 3 := by
  by_cases hsp : 32 ∈ s
  · -- the first prefix with a space ends with the first space
    obtain ⟨e, ⟨t, rfl⟩, hmem, hfirst⟩ :=
      first_prefix_exists (P := fun v => (32 : UInt8) ∈ v) ⟨s, List.prefix_refl s, hsp⟩
    rcases List.eq_nil_or_concat e with rfl | ⟨e, b, rfl⟩
    · simp at hmem
    rw [List.concat_eq_append] at hmem hfirst ⊢
    have he : 32 ∉ e := not_of_first hfirst (List.prefix_append _ _) (by simp)
    obtain rfl : b = 32 := by
      have hmem' : (32 : UInt8) ∈ e ++ [b] := hmem
      rcases List.mem_append.1 hmem' with h | h
      · exact absurd h he
      · exact (List.mem_singleton.1 h).symm
    by_cases hl : ∃ w, w <+: e ∧ EndsLine w
    · refine .inl ⟨[], [], _, .noCode fun v w hvw => ?_⟩
      obtain ⟨w', hw', hlw⟩ := hl
      exact ⟨w', hw'.trans (prefix_of_first_space he (by simpa using hvw)), hlw⟩
    · have hv : ∀ w, w <+: e → ¬ EndsLine w := fun w hw hlw => hl ⟨w, hw, hlw⟩
      by_cases ht : 3 ≤ t.length
      · rw [show e ++ [32] ++ t = e ++ 32 :: (t.take 3 ++ t.drop 3) by simp]
        exact .inl ⟨_, _, _, .code he hv (by simp; omega)⟩
      · exact .inr ⟨e, t, by simp, he, hv, by omega⟩
  · refine .inl ⟨[], [], s, .noCode fun v w hvw => ?_⟩
    exact absurd (by simp [hvw]) hsp

/-- A response that ends inside the code never gets past the status line. -/
theorem feedAll_cut {v c : List UInt8} (hsp : 32 ∉ v) (hv : ∀ w, w <+: v → ¬ EndsLine w)
    (hc : c.length < 3) : (feedAll {} (v ++ 32 :: c)).1.status = none ∧ (feedAll {} (v ++ 32 :: c)).2 = [] := by
  rw [show v ++ 32 :: c = v ++ [32] ++ c by simp, feedAll_opening hsp hv hc.le, if_neg (by omega)]
  exact ⟨rfl, rfl⟩

/-- A status unknown after the whole response was unknown after every prefix of it. -/
theorem status_none_of_extension {a b : List UInt8} (hab : a <+: b)
    (h : (feedAll {} b).1.status = none) : (feedAll {} a).1.status = none := by
  obtain ⟨t, rfl⟩ := hab
  cases ha : (feedAll {} a).1.status with
  | none => rfl
  | some st =>
    have hsome : (feedAll {} a).1.status.isSome := by rw [ha]; rfl
    have := feedAll_status_isSome_mono hsome t
    rw [h] at this
    exact absurd this (by simp)

/-- **When the status becomes known.** Fed up to its `k`-th byte, the response has a known
status exactly when `k` reaches past the end of the header block. -/
theorem StatusOpening.status_known_iff {s pre code x hdr y : List UInt8}
    (ho : StatusOpening s pre code x) (hx : x = hdr ++ y) (hend : EndsHeaders (pre ++ hdr))
    (hfirst : ∀ v, v <+: pre ++ hdr → EndsHeaders v → v = pre ++ hdr) (k : Nat) :
    (feedAll {} (s.take k)).1.status.isSome ↔ s.length - y.length ≤ k := by
  subst hx
  rcases List.eq_nil_or_concat hdr with rfl | ⟨h, b, rfl⟩
  · exact absurd hend (ho.not_endsHeaders_pre _ (by simp))
  rw [List.concat_eq_append] at hend hfirst ho
  -- fed up to the end of the block the status is known, one byte short it is not
  have hsome : (feedAll {} (pre ++ code ++ (h ++ [b]))).1.status.isSome := by
    have := ho.cut_rest.feedAll_ends (List.append_nil _).symm hend hfirst
    rw [this.1]
    rfl
  have hnone : (feedAll {} (pre ++ code ++ h)).1.status = none := by
    have ho' : StatusOpening s pre code (h ++ ([b] ++ y)) := by rwa [← List.append_assoc]
    refine (ho'.cut_rest.feedAll_never_ends fun v hv he => ?_).1
    rw [← List.append_assoc] at hfirst
    exact before_first hfirst v hv he
  have hs : s = pre ++ code ++ (h ++ [b]) ++ y := by
    rw [ho.eq]
    simp
  have hlen : s.length - y.length = (pre ++ code ++ h).length + 1 := by
    rw [hs]
    simp only [List.length_append, List.length_singleton]
    omega
  have htake : ∀ n, n ≤ (pre ++ code ++ h).length + 1 →
      s.take n = (pre ++ code ++ (h ++ [b])).take n := by
    intro n hn
    rw [hs, List.take_append_of_le_length (by simp at hn ⊢; omega)]
  have hshort : s.take (pre ++ code ++ h).length = pre ++ code ++ h := by
    rw [htake _ (by omega), show pre ++ code ++ (h ++ [b]) = pre ++ code ++ h ++ [b] by simp,
      List.take_left' rfl]
  have hfull : s.take ((pre ++ code ++ h).length + 1) = pre ++ code ++ (h ++ [b]) := by
    rw [htake _ le_rfl]
    exact List.take_of_length_le (by simp; omega)
  rw [hlen]
  constructor
  · intro hk
    by_contra hlt
    have hpre : s.take k <+: pre ++ code ++ h := by
      rw [← hshort]
      exact List.take_prefix_take_left (by omega)
    rw [status_none_of_extension hpre hnone] at hk
    exact absurd hk (by simp)
  · intro hk
    have hpre : pre ++ code ++ (h ++ [b]) <+: s.take k := by
      rw [← hfull]
      exact List.take_prefix_take_left hk
    obtain ⟨t, ht⟩ := hpre
    rw [← ht]
    exact feedAll_status_isSome_mono hsome t

/-! ## The response as a whole -/

/-- **Status and body of every response.** Fed byte by byte to a fresh parser, every byte
sequence opens its status line one of the two ways or ends inside the code. When the rest holds
a first end of the header block (`EndsHeaders`, counted over the bytes outside the code),
`finish` gives the status of the code (of no code, unknown, when a line ended before any space),
the body is exactly the bytes after that end, and the status is known from the end's last byte
on. When it holds none, or the response ends inside the code, `finish` gives `transportError`,
nothing is passed on, and no status is ever known. -/
theorem response_status_and_body (s : List UInt8) :
    ((∃ pre code x, StatusOpening s pre code x) ∨
      ∃ v c, s = v ++ 32 :: c ∧ 32 ∉ v ∧ (∀ w, w <+: v → ¬ EndsLine w) ∧ c.length < 3) ∧
    (∀ pre code x, StatusOpening s pre code x →
      (∀ hdr y, x = hdr ++ y → EndsHeaders (pre ++ hdr) →
          (∀ v, v <+: pre ++ hdr → EndsHeaders v → v = pre ++ hdr) →
        (feedAll {} s).1.finish.2 = Status.ofCode code ∧ (feedAll {} s).2 = y ∧
          ∀ k, ((feedAll {} (s.take k)).1.status.isSome ↔ s.length - y.length ≤ k)) ∧
      ((∀ v, v <+: pre ++ x → ¬ EndsHeaders v) →
        (feedAll {} s).1.finish.2 = .transportError ∧ (feedAll {} s).2 = [] ∧
          ∀ k, (feedAll {} (s.take k)).1.status = none)) ∧
    (∀ v c, s = v ++ 32 :: c → 32 ∉ v → (∀ w, w <+: v → ¬ EndsLine w) → c.length < 3 →
      (feedAll {} s).1.finish.2 = .transportError ∧ (feedAll {} s).2 = [] ∧
        ∀ k, (feedAll {} (s.take k)).1.status = none) := by
  refine ⟨opening_or_cut s, fun pre code x ho => ⟨fun hdr y hx hend hfirst => ?_, fun hx => ?_⟩,
    fun v c hs hsp hv hc => ?_⟩
  · obtain ⟨hst, hbody⟩ := ho.feedAll_ends hx hend hfirst
    refine ⟨by rw [finish_status, hst]; rfl, hbody, ho.status_known_iff hx hend hfirst⟩
  · obtain ⟨hst, hbody⟩ := ho.feedAll_never_ends hx
    refine ⟨by rw [finish_status, hst]; rfl, hbody, fun k => ?_⟩
    exact status_none_of_extension (List.take_prefix k s) hst
  · subst hs
    obtain ⟨hst, hbody⟩ := feedAll_cut hsp hv hc
    refine ⟨by rw [finish_status, hst]; rfl, hbody, fun k => ?_⟩
    exact status_none_of_extension (List.take_prefix k _) hst

/-- A plain response: its body is the byte after the blank line. -/
example : (feedAll {} [72, 84, 84, 80, 47, 49, 46, 48, 32, 50, 48, 48, 32, 79, 75,
    13, 10, 13, 10, 88]).2 = [88] := by decide

/-- `HTTP/1.0 200 OK` then CR CR LF CR LF and a body byte: after the code there is a CR LF CR LF,
but its first CR comes after a single carriage return, so the counter never reaches four and the
response ends as a transport error. -/
theorem lone_cr_hides_header_end :
    ((feedAll {} ([72, 84, 84, 80, 47, 49, 46, 48] ++ 32 :: ([50, 48, 48] ++
      [32, 79, 75, 13] ++ [13, 10, 13, 10] ++ [88]))).1.finish).2 = .transportError := by
  decide

end PetFeeder.Http
