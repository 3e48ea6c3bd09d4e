/-!
# The storage of a reader

A growable byte buffer. Received bytes are appended, and frames are taken from
the front. The room at the front is reclaimed by moving the remaining bytes.
-/

namespace ChatRelay

/-- The fill state of a buffer. -/
structure Storage where
  /-- The capacity in bytes. -/
  size : Nat := 8192
  /-- The number of bytes taken from the front. -/
  spent : Nat := 0
  /-- Whether a frame that was taken is still referenced. -/
  kept : Bool := false
  deriving DecidableEq, Repr, Inhabited

namespace Storage

/-- The room after `waiting` buffered bytes. -/
def room (s : Storage) (waiting : Nat) : Nat := s.size - (s.spent + waiting)

/-- Take bytes from the front. -/
def consume (s : Storage) (n : Nat) : Storage := { s with spent := s.spent + n }

/-- Make room for at least one byte. A buffer that is still referenced is
replaced. Otherwise the buffered bytes are moved to the front if they fit there,
or else the capacity is doubled. -/
def makeRoom (s : Storage) (waiting : Nat) : Storage :=
  if s.spent + waiting < s.size then s
  else if s.kept then
    let new : Storage := {}
    { new with size := max new.size (waiting + 1) }
  else if waiting ≤ s.spent ∧ waiting < s.size then { s with spent := 0 }
  else { s with size := max (2 * s.size) (s.spent + waiting + 1) }

theorem room_makeRoom (s : Storage) (waiting : Nat) :
    0 < (s.makeRoom waiting).room waiting := by
  unfold makeRoom room
  split
  · omega
  · split
    · simp only
      omega
    · split
      · simp only
        omega
      · simp only
        omega

/-- A buffer with room is not replaced. -/
theorem makeRoom_of_room {s : Storage} {waiting : Nat}
    (h : 0 < s.room waiting) :
    s.makeRoom waiting = s := by
  unfold room at h
  simp [makeRoom, show s.spent + waiting < s.size by omega]

/-- The remaining bytes are moved to the front of a buffer. -/
example : (Storage.consume {} 8192).makeRoom 0 = {} ∧
    (Storage.consume {} 100).makeRoom 8092 =
      { size := 16384, spent := 100 } := by
  decide

end Storage
end ChatRelay
