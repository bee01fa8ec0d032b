import Hal0.Registry.Gguf

/-!
# The scan of a header against its full decode

To pass a value is to read it and to keep the position: so the scan collects
what it would collect from all the pairs, each with its value, up to where
their decoding fails.
-/

namespace Hal0.Registry.Gguf

open Hal0.Cursors
open Hal0.Json (Table)

/-! ## Passing and reading -/

theorem skim_scalarValue (vtype : Nat) (format : Format) :
    skim (map (scalarValue vtype format) (take .malformed format.size)) =
      skip Failure.malformed format.size := by
  rw [skim_map, skim_take]

theorem skim_ggufString :
    skim ggufString = bind u64 fun length =>
      within .malformed length (skip .malformed length) := by
  simp [ggufString]

theorem skim_readScalar {array : Reading Failure Value}
    {passed : Reading Failure Unit} (isSkim : passed = skim array)
    (vtype : Nat) :
    skipScalar vtype passed = skim (readScalar vtype array) := by
  rw [skipScalar, readScalar]
  cases scalarFormats vtype with
  | some format => exact (skim_scalarValue vtype format).symm
  | none =>
    dsimp only
    split
    · rw [skim_map, skim_ggufString]
    · split
      · exact isSkim
      · rfl

theorem readValue_scalar {elemType : Nat} {format : Format}
    (isScalar : scalarFormats elemType = some format) (levels : Nat) :
    readValue levels elemType =
      map (scalarValue elemType format) (take .malformed format.size) := by
  cases levels <;> rw [readValue, readScalar, isScalar]

/-- Skipping reads as far as reading. -/
theorem skipValue_eq_skim (levels vtype : Nat) :
    skipValue levels vtype = skim (readValue levels vtype) := by
  induction levels generalizing vtype with
  | zero =>
    have refused : (fail .recursion : Reading Failure Unit) =
        skim (fail .recursion : Reading Failure Value) := rfl
    exact skim_readScalar refused vtype
  | succ levels ih =>
    refine skim_readScalar ?_ vtype
    rw [skim_bind]
    congr 1
    funext elemType
    rw [skim_bind]
    refine bind_take_congr fun length window pos inside => ?_
    rw [skim_map, skim_times]
    cases isScalar : scalarFormats elemType with
    | none =>
      dsimp only
      rw [ih]
    | some format =>
      dsimp only
      rw [readValue_scalar isScalar, skim_scalarValue,
        repeatedly_skip _ _ _ inside]

/-! ## The full decode -/

/-- A key with its value, which is read whatever the key. -/
def decodePair (levels : Nat) : Reading Failure (String × Value) :=
  bind ggufString fun key =>
    bind u32 fun vtype => map (key, ·) (readValue levels vtype)

/-- All pairs which decode, and the position after them or why they end. -/
def decodePairs (levels : Nat) (window : Bytes) :
    Nat → Nat → List (String × Value) × Except Failure Nat
  | 0, pos => ([], .ok pos)
  | count + 1, pos =>
    match decodePair levels window pos with
    | .error failure => ([], .error failure)
    | .ok (pair, after) =>
      let rest := decodePairs levels window count after
      (pair :: rest.1, rest.2)

/-- A pair is collected or passed over. -/
def Scan.note (scan : Scan) (pair : String × Value) : Scan :=
  if collects pair.1 scan.arch then scan.collect pair.1 pair.2 else scan

/-- A pair is read alike whether it is kept. -/
theorem Scan.pair_eq (levels : Nat) (scan : Scan) :
    scan.pair levels = map scan.note (decodePair levels) := by
  rw [Scan.pair, decodePair, map_bind]
  congr 1
  funext key
  rw [map_bind]
  congr 1
  funext vtype
  rw [map_map]
  split
  · next isCollected =>
      simp only [Scan.note, isCollected, if_true]
  · next isPassed =>
      rw [skipValue_eq_skim, skim, map_map]
      simp [Scan.note, isPassed]

/-- How the block ends, for the scan. -/
def scanEnd (scan : Scan) :
    Except Failure Nat → Except Failure (Scan × Option Nat)
  | .ok pos => .ok (scan, some pos)
  | .error .malformed => .ok (scan, none)
  | .error .recursion => .error .recursion

theorem Scan.pairs_eq (levels : Nat) (window : Bytes) (count : Nat)
    (scan : Scan) (pos : Nat) :
    Scan.pairs levels window count scan pos =
      scanEnd ((decodePairs levels window count pos).1.foldl Scan.note scan)
        (decodePairs levels window count pos).2 := by
  induction count generalizing scan pos with
  | zero => rfl
  | succ count ih =>
    rw [Scan.pairs, decodePairs, Scan.pair_eq, map, Cursors.bind]
    cases decodePair levels window pos with
    | error failure => cases failure <;> rfl
    | ok pair => exact ih (scan.note pair.1) pair.2

end Hal0.Registry.Gguf
