import PetFeeder.Proofs.BoundedWrites

/-!
# The bytes of a check-in request

A check-in request is an HTTP/1.0 `GET` of the endpoint's path, with a `Host` header, a
`Content-Length` header giving the length of the body in decimal, a blank line, and the encoded
report as its body (`Http.writeRequest`). The header goes into the sink as seven slices
(`Http.requestHead`), and the body byte by byte.

* A growable sink takes the header text followed by the body. The body's length is the one the
  header announces, and its decimal has at most twenty digits.
* An empty bounded sink that takes slices whole succeeds exactly when all of it fits. Otherwise
  it keeps the longest run of whole header pieces that fits
  (`Http.putSlices_whole_room`), or, when the header fits, the header and as much of the body as
  fits.
* An empty bounded sink that takes slices byte by byte keeps the first bytes of the request, as
  many as fit (`Http.putSlices_bytewise_room`).

Main statement: `request_bytes_on_every_sink`.
-/

namespace PetFeeder

/-! ## Text as bytes -/

theorem ByteArray.toList_loop_eq (bs : ByteArray) (i : Nat) (r : List UInt8) :
    ByteArray.toList.loop bs i r = r.reverse ++ bs.data.toList.drop i := by
  fun_induction ByteArray.toList.loop bs i r with
  | case1 i r hi ih =>
    have hi' : i < bs.data.toList.length := by simpa [← ByteArray.size_data] using hi
    have hget : bs.get! i = bs.data[i] := by simp [ByteArray.get!, hi]
    rw [ih, List.drop_eq_getElem_cons hi', hget]
    simp
  | case2 i r hi =>
    have hi' : bs.data.toList.length ≤ i := by simpa [← ByteArray.size_data] using hi
    simp [List.drop_eq_nil_of_le hi']

theorem ByteArray.toList_eq (bs : ByteArray) : bs.toList = bs.data.toList := by
  simp [ByteArray.toList, ByteArray.toList_loop_eq]

namespace Http

@[simp] theorem utf8_append (a b : String) : utf8 (a ++ b) = utf8 a ++ utf8 b := by
  simp [utf8, ByteArray.toList_eq]

theorem length_utf8 (s : String) : (utf8 s).length = s.utf8ByteSize := by
  simp [utf8, ByteArray.toList_eq]

/-- A count up to twenty is written in at most twenty bytes. -/
theorem length_utf8_toString_le {n : Nat} (h : n ≤ 20) : (utf8 (toString n)).length ≤ 20 := by
  have hdigits : ∀ n, n ≤ 20 → (toString n).utf8ByteSize ≤ 20 := by decide
  rw [length_utf8]
  exact hdigits n h

/-! ## Writing the header pieces -/

variable {s : Sink} {f : Nat}

/-- **Slices taken whole.** All of them go in when they fit. Otherwise the sink keeps the first
`k` slices, the longest run that fits, and the next one does not fit. -/
theorem putSlices_whole_room (hr : s.rule = .whole) (h : s.Room f) (xs : List (List UInt8)) :
    (xs.flatten.length ≤ f →
      putSlices xs s = .ok () { s with bytes := s.bytes ++ xs.flatten.toArray }) ∧
    (f < xs.flatten.length → ∃ k, k < xs.length ∧ (xs.take k).flatten.length ≤ f ∧
      f < (xs.take (k + 1)).flatten.length ∧
      putSlices xs s = .error .full { s with bytes := s.bytes ++ (xs.take k).flatten.toArray }) := by
  induction xs generalizing s f with
  | nil => exact ⟨fun _ => by simp [putSlices, pure, EStateM.pure], fun h => by simp at h⟩
  | cons x xs ih =>
    have hlen : (x :: xs).flatten.length = x.length + xs.flatten.length := by
      simp only [List.flatten_cons, List.length_append]
    have htake : ∀ k, ((x :: xs).take (k + 1)).flatten.length =
        x.length + (xs.take k).flatten.length := by
      intro k
      simp only [List.take_succ_cons, List.flatten_cons, List.length_append]
    by_cases hx : x.length ≤ f
    · -- the first slice goes in; the rest go into what room is left
      obtain ⟨hfit, hover⟩ := ih (s := { s with bytes := s.bytes ++ x.toArray }) hr (h.append hx)
      have hfirst : putSlices (x :: xs) s =
          putSlices xs { s with bytes := s.bytes ++ x.toArray } := by
        simp only [putSlices, bind, EStateM.bind, Sink.putSlice_whole_room hr h, if_pos hx]
      refine ⟨fun hle => ?_, fun hlt => ?_⟩
      · rw [hfirst, hfit (by omega)]
        simp [Array.append_assoc]
      · obtain ⟨k, hk, hkfit, hknext, hrun⟩ := hover (by omega)
        refine ⟨k + 1, by simp; omega, by rw [htake]; omega, by rw [htake]; omega, ?_⟩
        rw [hfirst, hrun]
        simp [Array.append_assoc]
    · -- the first slice does not fit, and the sink stays as it was
      have hfirst : putSlices (x :: xs) s = .error .full s := by
        simp only [putSlices, bind, EStateM.bind, Sink.putSlice_whole_room hr h, if_neg hx]
      refine ⟨fun hle => absurd hle (by omega), fun _ => ⟨0, by simp, by simp, ?_, ?_⟩⟩
      · rw [htake]
        omega
      · rw [hfirst]
        simp

/-- **Slices taken byte by byte** are their bytes put one at a time. -/
theorem putSlices_bytewise_room (hr : s.rule = .bytewise) (h : s.Room f)
    (xs : List (List UInt8)) : putSlices xs s = Sink.putEach xs.flatten s := by
  induction xs generalizing s f with
  | nil => rfl
  | cons x xs ih =>
    rw [List.flatten_cons, Sink.putEach_append]
    by_cases hx : x.length ≤ f
    · simp only [putSlices, bind, EStateM.bind, Sink.putSlice_bytewise hr, Sink.putEach_of_le h hx]
      exact ih (s := { s with bytes := s.bytes ++ x.toArray }) hr (h.append hx)
    · simp only [putSlices, bind, EStateM.bind, Sink.putSlice_bytewise hr,
        Sink.putEach_of_lt h (Nat.lt_of_not_le hx)]

/-- A longer run of pieces is at least as long. -/
theorem length_flatten_take_le (xs : List (List UInt8)) {i j : Nat} (hij : i ≤ j) :
    (xs.take i).flatten.length ≤ (xs.take j).flatten.length := by
  obtain ⟨d, rfl⟩ := Nat.exists_eq_add_of_le hij
  simp [List.take_add]

/-- The request is its header pieces, then its body put byte by byte. -/
theorem writeRequest_eq (host path : String) (q : Request) (s : Sink) :
    writeRequest host path q s = (putSlices (requestHead host path q) >>= fun _ =>
      Sink.putEach (Wire.joinFields q.fields)) s := by
  simp only [writeRequest, bind, EStateM.bind]
  cases putSlices (requestHead host path q) s with
  | ok _ s' => exact Request.putsEach_writeFields q s'
  | error e s' => rfl

end Http

open Http in
/-- **The bytes of a check-in request, on every kind of sink.** For any host, path and report:

* a growable sink takes `GET <path> HTTP/1.0` CR LF `Host: <host>` CR LF `Content-Length: <n>`
  CR LF CR LF and then the encoded report, where `n` is the length of that encoding, the
  number of bytes after the blank line; for a report a check-in can carry, `n` in decimal takes at
  most twenty bytes;
* an empty bounded sink of `N` bytes that takes slices whole succeeds exactly when the request
  fits. Otherwise, when the header fits it holds the header and the first bytes of the body, as
  many as fit; when the header does not fit, it holds the longest run of whole header pieces that
  fits;
* an empty bounded sink of `N` bytes that takes slices byte by byte holds the first bytes of the
  request, as many as fit, and succeeds exactly when all of it fits. -/
theorem request_bytes_on_every_sink (host path : String) (q : Request) :
    let head := requestHead host path q
    let body := Wire.joinFields q.fields
    let total := head.flatten.length + body.length
    (∀ s : Sink, s.capacity = none → writeRequest host path q s =
      .ok () { s with bytes := s.bytes ++ (utf8 ("GET " ++ path ++ " HTTP/1.0\r\nHost: " ++ host ++
        "\r\nContent-Length: " ++ toString q.encodedLen ++ "\r\n\r\n") ++ body).toArray }) ∧
    Appends (Wire.encode q) body ∧ body.length = q.encodedLen ∧
    (q.InRange → (utf8 (toString q.encodedLen)).length ≤ 20) ∧
    (∀ N, ((∃ s', writeRequest host path q (Sink.bounded N) = .ok () s') ↔ total ≤ N) ∧
      (N < total → head.flatten.length ≤ N → writeRequest host path q (Sink.bounded N) =
        .error .full { Sink.bounded N with
          bytes := (head.flatten ++ body.take (N - head.flatten.length)).toArray }) ∧
      (N < head.flatten.length → ∃ k, k < head.length ∧ (head.take k).flatten.length ≤ N ∧
        (∀ j, k < j → j ≤ head.length → N < (head.take j).flatten.length) ∧
        writeRequest host path q (Sink.bounded N) =
          .error .full { Sink.bounded N with bytes := (head.take k).flatten.toArray })) ∧
    (∀ N, writeRequest host path q (Sink.bytewise (some N)) =
      if total ≤ N then .ok () { Sink.bytewise (some N) with bytes := (head.flatten ++ body).toArray }
      else .error .full
        { Sink.bytewise (some N) with bytes := ((head.flatten ++ body).take N).toArray }) := by
  intro head body total
  refine ⟨fun s hs => ?_, Request.encode_appends q, Request.length_fields q,
    fun hq => length_utf8_toString_le (Request.encodedLen_le hq), fun N => ?_, fun N => ?_⟩
  · rw [CheckIn.appends_writeRequest host path q s hs]
    simp [requestHead, body]
  · obtain ⟨hfit, hover⟩ := putSlices_whole_room rfl (Sink.room_bounded N) head
    -- once the header is in, the body goes in byte by byte into what room is left
    let afterHead : Sink :=
      { Sink.bounded N with bytes := (Sink.bounded N).bytes ++ head.flatten.toArray }
    have hheader : head.flatten.length ≤ N →
        writeRequest host path q (Sink.bounded N) = Sink.putEach body afterHead := fun hle =>
      (writeRequest_eq host path q _).trans (Sink.then_ok (hfit hle))
    have hbody : head.flatten.length ≤ N → afterHead.Room (N - head.flatten.length) :=
      fun hle => (Sink.room_bounded N).append hle
    -- a header that does not fit stops the request inside it
    have hshort : ∀ k, putSlices head (Sink.bounded N) =
        .error .full { Sink.bounded N with bytes := (head.take k).flatten.toArray } →
        writeRequest host path q (Sink.bounded N) =
          .error .full { Sink.bounded N with bytes := (head.take k).flatten.toArray } := fun k hrun =>
      (writeRequest_eq host path q _).trans (Sink.then_error (hrun.trans (by simp [Sink.bounded])))
    refine ⟨⟨fun hok => ?_, fun hle => ?_⟩, fun hlt hle => ?_, fun hlt => ?_⟩
    · obtain ⟨s', hs'⟩ := hok
      by_cases hle : head.flatten.length ≤ N
      · rw [hheader hle, Sink.putEach_room (hbody hle)] at hs'
        split at hs'
        · omega
        · cases hs'
      · obtain ⟨k, -, -, -, hrun⟩ := hover (by omega)
        rw [hshort k (hrun.trans (by simp [Sink.bounded]))] at hs'
        cases hs'
    · rw [hheader (by omega), Sink.putEach_of_le (hbody (by omega)) (by omega)]
      exact ⟨_, rfl⟩
    · rw [hheader hle, Sink.putEach_of_lt (hbody hle) (by omega)]
      simp [afterHead, Sink.bounded]
    · obtain ⟨k, hk, hkfit, hknext, hrun⟩ := hover hlt
      refine ⟨k, hk, hkfit, fun j hkj hj => ?_, hshort k (hrun.trans (by simp [Sink.bounded]))⟩
      exact Nat.lt_of_lt_of_le hknext (length_flatten_take_le head hkj)
  · -- header and body both go in byte by byte
    have hall : writeRequest host path q (Sink.bytewise (some N)) =
        Sink.putEach (head.flatten ++ body) (Sink.bytewise (some N)) := by
      rw [writeRequest_eq, Sink.putEach_append]
      simp only [bind, EStateM.bind, putSlices_bytewise_room rfl (Sink.room_bytewise N)]
      rfl
    rw [hall, Sink.putEach_room (Sink.room_bytewise N)]
    simp [Sink.bytewise, total]

end PetFeeder
