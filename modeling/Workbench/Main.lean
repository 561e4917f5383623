/-
# Command line

Plays a first launch and prints what happened. Identifiers are random, and the terms are
accepted at the present time.
-/

import Workbench.FirstLaunch
import Workbench.Oid
import Std.Time.DateTime.Timestamp

namespace Workbench.CommandLine

/-- More identifiers than one launch draws. -/
def identifiersDrawn : Nat := 64

/-- A number made of eight bytes. -/
def wordOfBytes (bytes : List UInt8) : UInt64 :=
  bytes.foldl (fun word byte => word * 256 + byte.toUInt64) 0

/-- Draw an identifier. -/
def drawOid : IO String := do
  let bytes := (← IO.getRandomBytes 16).toList
  return Oid.ofBits (wordOfBytes (bytes.take 8)) (wordOfBytes (bytes.drop 8))

end Workbench.CommandLine

open Workbench Workbench.CommandLine in
/-- Play a first launch; the exit code tells whether it succeeded. -/
def main : IO UInt32 := do
  let mut drawn := #[]
  for _ in [0:identifiersDrawn] do
    drawn := drawn.push (← drawOid)
  let identifiers := drawn
  let start ← IO.monoMsNow
  let present := (← Std.Time.Timestamp.now).toMillisecondsSinceUnixEpoch.val
  let ticks (time : Nat) : Tick :=
    ⟨.quiet start, identifiers.getD (time % identifiersDrawn) "", Int64.ofInt present⟩
  match FirstLaunch.play (.default .release) ticks with
  | .ok launch =>
      for line in launch.lines do
        IO.println line
      return 0
  | .error problem =>
      IO.eprintln ("first launch failed: " ++ problem)
      return 1
