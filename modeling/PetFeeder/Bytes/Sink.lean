/-!
# Byte sinks

A sink collects the bytes a writer produces. Three kinds occur:

- a *growable* sink takes every byte;
- a *bounded* sink holds at most `capacity` bytes and takes a slice whole or not at all;
- a *bytewise* sink takes a slice one byte at a time, keeping the bytes that fit.

Writing is a computation `Emit` over the sink. A failed write reports `BufferFull` and keeps
whatever the sink took before the failure, so partial output stays visible to the caller.

Main statements: `put_written` (a byte that fits grows the sink by one), `putEach_growable`
(a growable sink takes a whole list), `putSlice_whole_full` (a bounded slice that does not
fit leaves the sink as it was).
-/

namespace PetFeeder

/-- The one way a write fails: the sink has no room for the next byte or slice. -/
inductive BufferFull
  | full
deriving DecidableEq, Repr

namespace BufferFull

/-- The text every full sink reports. -/
def message : BufferFull → String
  | .full => "buffer full"

end BufferFull

/-- How a bounded sink takes a slice that does not fit in what is left. -/
inductive SliceRule
  /-- The slice goes in whole or not at all. -/
  | whole
  /-- The slice goes in byte by byte, and the bytes that fit stay. -/
  | bytewise
deriving DecidableEq, Repr

/-- A sink: what it has taken so far, its capacity (`none` for no limit) and how it takes
slices. -/
structure Sink where
  /-- At most this many bytes fit; `none` means the sink grows without limit. -/
  capacity : Option Nat
  /-- How a slice that does not fit is taken. -/
  rule : SliceRule
  /-- The bytes taken so far, oldest first. -/
  bytes : Array UInt8

namespace Sink

/-- A sink without a limit. -/
def growable : Sink := ⟨none, .whole, #[]⟩

/-- An empty sink of fixed capacity that takes slices whole or not at all. -/
def bounded (cap : Nat) : Sink := ⟨some cap, .whole, #[]⟩

/-- An empty sink that takes slices byte by byte, with or without a limit. -/
def bytewise (cap : Option Nat) : Sink := ⟨cap, .bytewise, #[]⟩

/-- How many bytes the sink holds. -/
def written (s : Sink) : Nat := s.bytes.size

/-- Whether `n` more bytes fit. -/
def fits (s : Sink) (n : Nat) : Bool :=
  match s.capacity with
  | none => true
  | some c => s.written + n ≤ c

/-- Offers one byte: the sink afterwards, and whether the byte went in. A full sink is
handed back as it was, so the caller never holds two copies of the bytes. -/
def offer (s : Sink) (b : UInt8) : Sink × Bool :=
  if s.fits 1 then ({ s with bytes := s.bytes.push b }, true) else (s, false)

end Sink

/-- A computation that writes into a sink and may stop on a full sink. -/
abbrev Emit := EStateM BufferFull Sink

namespace Sink

/-- Writes one byte. -/
def put (b : UInt8) : Emit Unit := fun s =>
  match s.offer b with
  | (s', true) => .ok () s'
  | (s', false) => .error .full s'

/-- Writes the bytes one at a time, stopping at the first that does not fit. -/
def putEach : List UInt8 → Emit Unit
  | [] => pure ()
  | b :: bs => do put b; putEach bs

/-- Writes a slice by the sink's rule: whole or not at all, or byte by byte. -/
def putSlice (bs : List UInt8) : Emit Unit := fun s =>
  match s.rule with
  | .bytewise => putEach bs s
  | .whole =>
    if s.fits bs.length then .ok () { s with bytes := s.bytes ++ bs.toArray }
    else .error .full s

/-! ## Laws -/

@[simp] theorem written_growable : growable.written = 0 := rfl

@[simp] theorem fits_growable_capacity (s : Sink) (h : s.capacity = none) (n : Nat) :
    s.fits n = true := by
  simp [fits, h]

theorem put_written (s : Sink) (b : UInt8) (h : s.fits 1 = true) :
    put b s = .ok () { s with bytes := s.bytes.push b } := by
  simp [put, offer, h]

theorem put_full (s : Sink) (b : UInt8) (h : s.fits 1 = false) : put b s = .error .full s := by
  simp [put, offer, h]

theorem putEach_growable (bs : List UInt8) (s : Sink) (h : s.capacity = none) :
    putEach bs s = .ok () { s with bytes := s.bytes ++ bs.toArray } := by
  induction bs generalizing s with
  | nil => simp [putEach, pure, EStateM.pure]
  | cons b bs ih =>
    simp only [putEach, bind, EStateM.bind]
    rw [put_written s b (fits_growable_capacity s h 1)]
    dsimp only
    exact (ih { s with bytes := s.bytes.push b } h).trans (by rw [List.toArray_cons, ← Array.append_assoc]; rfl)

theorem putSlice_whole_full (s : Sink) (bs : List UInt8) (hr : s.rule = .whole)
    (h : s.fits bs.length = false) : putSlice bs s = .error .full s := by
  simp [putSlice, hr, h]

end Sink

end PetFeeder
