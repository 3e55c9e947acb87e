import VorbisTrack.Bytes

/-!
# Reading positions

A reader stands at a position of a file, possibly past its end. It fetches more bytes at once than
it is asked for and holds the rest, so that bytes it holds stay what they were when the file gets
other bytes. `Reader.rest` is what it will read, and every operation is described by it.
-/

set_option autoImplicit false

namespace VorbisTrack

structure Reader where
  /-- The bytes of the file. -/
  bytes : Bytes
  position : Nat := 0
  /-- Bytes at the position that have been fetched. -/
  held : Bytes := []

namespace Reader

/-- What follows the position: the bytes that are held, then those of the file behind them. -/
def rest (r : Reader) : Bytes :=
  r.held ++ r.bytes.drop (r.position + r.held.length)

/-- Count of bytes that will be read at most. -/
def remaining (r : Reader) : Nat :=
  r.rest.length

def seek (r : Reader) (position : Nat) : Reader :=
  { bytes := r.bytes, position }

def seekEnd (r : Reader) : Reader :=
  r.seek r.bytes.length

/-- The reader after its file has got other bytes. -/
def refresh (r : Reader) (bytes : Bytes) : Reader :=
  { r with bytes }

/-- Count of bytes that are fetched at once, unless more are missing. -/
def stride : Nat := 8192

/-- The reader after it has fetched enough to hold `count` bytes, if the file has that many. -/
def fetch (r : Reader) (count : Nat) : Reader :=
  let missing := count - (r.held.take count).length
  if missing = 0 then r
  else
    { r with
      held := r.held ++ (r.bytes.drop (r.position + r.held.length)).take (max stride missing) }

/-- Reads exactly `count` bytes. If fewer are left, they are used up all the same. -/
def read (r : Reader) (count : Nat) : Option Bytes × Reader :=
  let ready := r.fetch count
  let got := ready.held.take count
  (if got.length = count then some got else none,
    { ready with position := ready.position + got.length, held := ready.held.drop count })

@[simp] theorem bytes_seek (r : Reader) (position : Nat) : (r.seek position).bytes = r.bytes := rfl

@[simp] theorem position_seek (r : Reader) (position : Nat) :
    (r.seek position).position = position := rfl

/-- A reader that was put at a position reads the file from there. -/
@[simp] theorem rest_seek (r : Reader) (position : Nat) :
    (r.seek position).rest = r.bytes.drop position := by
  simp [rest, seek]

@[simp] theorem bytes_fetch (r : Reader) (count : Nat) : (r.fetch count).bytes = r.bytes := by
  simp only [fetch]
  split <;> rfl

@[simp] theorem position_fetch (r : Reader) (count : Nat) :
    (r.fetch count).position = r.position := by
  simp only [fetch]
  split <;> rfl

/-- Fetching changes nothing about what will be read. -/
@[simp] theorem rest_fetch (r : Reader) (count : Nat) : (r.fetch count).rest = r.rest := by
  simp only [fetch]
  split
  · rfl
  · simp only [rest, List.append_assoc, List.append_cancel_left_eq, List.length_append]
    rw [← Nat.add_assoc]
    generalize r.position + r.held.length = fetched
    generalize max stride _ = amount
    rw [← List.drop_drop]
    generalize r.bytes.drop fetched = behind
    rw [List.length_take]
    by_cases h : amount ≤ behind.length
    · rw [Nat.min_eq_left h, List.take_append_drop]
    · rw [Nat.min_eq_right (by omega), List.take_of_length_le (by omega), List.drop_length,
        List.append_nil]

/-- After fetching, the bytes that are asked for are held, or none are left in the file. -/
theorem le_length_held_fetch (r : Reader) (count : Nat) :
    count ≤ (r.fetch count).held.length ∨
      (r.fetch count).bytes.length ≤ (r.fetch count).position + (r.fetch count).held.length := by
  simp only [fetch]
  split
  · next enough =>
    rw [List.length_take] at enough
    omega
  · simp only [List.length_append, List.length_take, List.length_drop]
    omega

/-- The bytes that a read gives are the next ones. -/
theorem take_held_fetch (r : Reader) (count : Nat) :
    (r.fetch count).held.take count = r.rest.take count := by
  rw [← rest_fetch r count]
  rcases le_length_held_fetch r count with enough | ended
  · rw [rest, List.take_append_of_le_length enough]
  · rw [rest, List.drop_eq_nil_of_le ended, List.append_nil]

@[simp] theorem bytes_read (r : Reader) (count : Nat) : (r.read count).2.bytes = r.bytes := by
  simp [read]

/-- A read takes from the front of what will be read. -/
theorem rest_read (r : Reader) (count : Nat) : (r.read count).2.rest = r.rest.drop count := by
  rw [← rest_fetch r count]
  simp only [read, rest]
  rcases le_length_held_fetch r count with enough | ended
  · rw [List.drop_append_of_le_length enough]
    congr 2
    simp only [List.length_take, List.length_drop]
    omega
  · rw [List.drop_eq_nil_of_le ended, List.append_nil, List.append_right_eq_self]
    apply List.drop_eq_nil_of_le
    simp only [List.length_take, List.length_drop]
    omega

/-- A read that succeeds gives the next bytes and moves past them. -/
theorem read_eq_some {r : Reader} {count : Nat} {got : Bytes} (h : (r.read count).1 = some got) :
    got = r.rest.take count ∧ got.length = count ∧
      (r.read count).2.position = r.position + count := by
  simp only [read, take_held_fetch, position_fetch] at h ⊢
  split at h
  · next full =>
    simp only [Option.some.injEq] at h
    subst h
    exact ⟨rfl, full, by rw [full]⟩
  · simp at h

/-- A read succeeds if enough is left. -/
theorem read_of_le_length {r : Reader} {count : Nat} (enough : count ≤ r.rest.length) :
    (r.read count).1 = some (r.rest.take count) := by
  simp only [read, take_held_fetch]
  rw [if_pos (List.length_take_of_le enough)]

/-- A read fails if not enough is left, and uses up what there is. -/
theorem read_of_length_lt {r : Reader} {count : Nat} (short : r.rest.length < count) :
    ∃ r', r.read count = (none, r') ∧ r'.bytes = r.bytes ∧ r'.rest = [] := by
  have none_ : (r.read count).1 = none := by
    simp only [read, take_held_fetch]
    rw [if_neg]
    rw [List.length_take]
    omega
  refine ⟨(r.read count).2, Prod.ext none_ rfl, bytes_read .., ?_⟩
  rw [rest_read]
  exact List.drop_eq_nil_of_le (Nat.le_of_lt short)

/-- A read stays in its file and never goes back. -/
theorem position_le_of_read {r r' : Reader} {count : Nat} {got : Option Bytes}
    (h : r.read count = (got, r')) : r'.bytes = r.bytes ∧ r.position ≤ r'.position := by
  have : r' = (r.read count).2 := by rw [h]
  subst this
  exact ⟨bytes_read .., by simp [read]⟩

/-- A read leaves no more than there was. -/
theorem remaining_le_of_read {r r' : Reader} {count : Nat} {got : Option Bytes}
    (h : r.read count = (got, r')) : r'.remaining ≤ r.remaining := by
  have : r' = (r.read count).2 := by rw [h]
  subst this
  simp only [remaining, rest_read, List.length_drop]
  omega

/-- A read of some bytes leaves fewer. -/
theorem remaining_lt_of_read {r r' : Reader} {count : Nat} {got : Bytes} (hpos : 0 < count)
    (h : r.read count = (some got, r')) : r'.remaining < r.remaining := by
  obtain ⟨hgot, hlen, -⟩ := read_eq_some (congrArg Prod.fst h)
  have : r' = (r.read count).2 := by rw [h]
  subst this
  rw [hgot, List.length_take] at hlen
  simp only [remaining, rest_read, List.length_drop]
  omega

/-- Going on to a later position leaves no more than there was. -/
theorem remaining_seek_le {r : Reader} {position : Nat} (h : r.position ≤ position) :
    (r.seek position).remaining ≤ r.remaining := by
  rw [remaining, rest_seek, remaining, rest, List.length_append]
  simp only [List.length_drop]
  omega

end Reader

end VorbisTrack
