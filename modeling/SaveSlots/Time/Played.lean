/-!
# Played time

A span of time in seconds and nanoseconds, as a game counts it.
-/

namespace SaveSlots

structure PlayedTime where
  secs : UInt64
  nanos : Fin 1000000000
deriving DecidableEq, Inhabited

namespace PlayedTime

def ofSeconds (secs : UInt64) : PlayedTime := ⟨secs, ⟨0, by decide⟩⟩

def zero : PlayedTime := ofSeconds 0

/-- Nanoseconds beyond a second are carried into the seconds; none if these get too large. -/
def of? (secs nanos : Nat) : Option PlayedTime :=
  let secs := secs + nanos / 1000000000
  if secs < 0x10000000000000000 then
    some ⟨UInt64.ofNat secs, ⟨nanos % 1000000000, Nat.mod_lt _ (by decide)⟩⟩
  else
    none

end PlayedTime

end SaveSlots
