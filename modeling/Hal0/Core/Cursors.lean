import Mathlib.Tactic.Common

/-!
# Readings of a window of bytes

A reading starts at a position of a window, and ends with a value and the
position after it, or with a fault.  A reading is local when what it has read
does not depend on what follows in the window, and it advances when it passes
at least so many bytes.  To skim is to read and to keep the position only.
-/

namespace Hal0.Cursors

abbrev Bytes := List UInt8

/-- A read at a position, with the position after it. -/
abbrev Reading (Fault Value : Type) :=
  Bytes → Nat → Except Fault (Value × Nat)

variable {Fault Value Other : Type}

/-! ## Combinators -/

/-- Reads nothing. -/
def pure (value : Value) : Reading Fault Value :=
  fun _ pos => .ok (value, pos)

/-- Fails without a read. -/
def fail (fault : Fault) : Reading Fault Value :=
  fun _ _ => .error fault

/-- One read after another. -/
def bind (read : Reading Fault Value)
    (next : Value → Reading Fault Other) : Reading Fault Other :=
  fun window pos =>
    match read window pos with
    | .error fault => .error fault
    | .ok (value, after) => next value window after

/-- A read with its value changed. -/
def map (change : Value → Other) (read : Reading Fault Value) :
    Reading Fault Other :=
  bind read fun value => pure (change value)

/-- So many bytes. -/
def take (fault : Fault) (count : Nat) : Reading Fault Bytes :=
  fun window pos =>
    if window.length < pos + count then .error fault
    else .ok ((window.drop pos).take count, pos + count)

/-- Past so many bytes. -/
def skip (fault : Fault) (count : Nat) : Reading Fault Unit :=
  fun window pos =>
    if window.length < pos + count then .error fault
    else .ok ((), pos + count)

/-- A reading which is refused when a length exceeds the window. -/
def within (fault : Fault) (length : Nat) (read : Reading Fault Value) :
    Reading Fault Value :=
  fun window pos =>
    if window.length < length then .error fault else read window pos

/-- So many values, one after the other. -/
def times (read : Reading Fault Value) : Nat → Reading Fault (List Value)
  | 0 => pure []
  | count + 1 => bind read fun value => map (value :: ·) (times read count)

/-- The same reading so many times, without what it reads. -/
def repeatedly (read : Reading Fault Unit) : Nat → Reading Fault Unit
  | 0 => pure ()
  | count + 1 => bind read fun _ => repeatedly read count

/-- A read without its value. -/
def skim (read : Reading Fault Value) : Reading Fault Unit :=
  map (fun _ => ()) read

/-! ## Skimming -/

variable {Third : Type}

theorem bind_assoc (read : Reading Fault Value)
    (next : Value → Reading Fault Other) (last : Other → Reading Fault Third) :
    bind (bind read next) last = bind read fun value =>
      bind (next value) last := by
  funext window pos
  simp only [bind]
  cases read window pos <;> rfl

theorem bind_map (change : Value → Other) (read : Reading Fault Value)
    (next : Other → Reading Fault Third) :
    bind (map change read) next = bind read fun value =>
      next (change value) := by
  rw [map, bind_assoc]
  rfl

theorem map_map (change : Value → Other) (again : Other → Third)
    (read : Reading Fault Value) :
    map again (map change read) = map (fun value => again (change value)) read :=
  bind_map change read _

theorem map_bind (read : Reading Fault Value)
    (next : Value → Reading Fault Other) (change : Other → Third) :
    map change (bind read next) = bind read fun value =>
      map change (next value) :=
  bind_assoc read next _

@[simp]
theorem skim_bind (read : Reading Fault Value)
    (next : Value → Reading Fault Other) :
    skim (bind read next) = bind read fun value => skim (next value) :=
  map_bind read next _

@[simp]
theorem skim_map (change : Value → Other) (read : Reading Fault Value) :
    skim (map change read) = skim read :=
  map_map change _ read

@[simp]
theorem skim_take (fault : Fault) (count : Nat) :
    skim (take fault count) = skip fault count := by
  funext window pos
  by_cases short : window.length < pos + count <;>
    simp [skim, map, bind, pure, take, skip, short]

@[simp]
theorem skim_within (fault : Fault) (length : Nat)
    (read : Reading Fault Value) :
    skim (within fault length read) = within fault length (skim read) := by
  funext window pos
  by_cases short : window.length < length <;>
    simp [skim, map, bind, within, short]

theorem bind_skim (read : Reading Fault Value) (next : Reading Fault Other) :
    (bind (skim read) fun _ => next) = bind read fun _ => next :=
  bind_map _ read _

theorem skim_times (read : Reading Fault Value) (count : Nat) :
    skim (times read count) = repeatedly (skim read) count := by
  induction count with
  | zero => rfl
  | succ count ih =>
    rw [times, repeatedly, skim_bind, bind_skim]
    simp only [skim_map, ih]

/-- Equal skips are one long skip. -/
theorem repeatedly_skip (fault : Fault) (size count : Nat)
    {window : Bytes} {pos : Nat} (inside : pos ≤ window.length) :
    repeatedly (skip fault size) count window pos =
      skip fault (size * count) window pos := by
  induction count generalizing pos with
  | zero => simp [repeatedly, pure, skip, Nat.not_lt.mpr inside]
  | succ count ih =>
    have larger : size ≤ size * (count + 1) :=
      Nat.le_mul_of_pos_right size (Nat.succ_pos count)
    by_cases short : window.length < pos + size
    · have tooShort : window.length < pos + size * (count + 1) := by omega
      simp [repeatedly, bind, skip, short, tooShort]
    · have step : repeatedly (skip fault size) (count + 1) window pos =
          repeatedly (skip fault size) count window (pos + size) := by
        simp [repeatedly, bind, skip, short]
      rw [step, ih (Nat.not_lt.mp short), skip, skip, Nat.mul_succ,
        Nat.add_assoc, Nat.add_comm size]

/-! ## Local readings -/

/-- What has been read in a part of a window is read in the whole of it. -/
def Local (read : Reading Fault Value) : Prop :=
  ∀ ⦃cut whole : Bytes⦄ ⦃pos : Nat⦄ ⦃result : Value × Nat⦄,
    cut <+: whole → read cut pos = .ok result → read whole pos = .ok result

theorem Local.pure (value : Value) :
    Local (pure value : Reading Fault Value) :=
  fun _ _ _ _ _ done => done

theorem Local.fail (fault : Fault) :
    Local (fail fault : Reading Fault Value) :=
  fun _ _ _ _ _ done => done

variable {read : Reading Fault Value} {next : Value → Reading Fault Other}

theorem Local.bind (isLocal : Local read)
    (nextLocal : ∀ value, Local (next value)) :
    Local (bind read next) := by
  intro cut whole pos result part done
  rw [Cursors.bind] at done ⊢
  cases first : read cut pos with
  | error fault =>
    rw [first] at done
    cases done
  | ok pair =>
    rw [first] at done
    rw [isLocal part first]
    exact nextLocal pair.1 part done

theorem Local.map {change : Value → Other}
    (isLocal : Local read) : Local (map change read) :=
  isLocal.bind fun _ => Local.pure _

theorem Local.take (fault : Fault) (count : Nat) :
    Local (take fault count) := by
  rintro cut whole pos result ⟨rest, rfl⟩ done
  rw [Cursors.take] at done ⊢
  split at done
  · cases done
  · next enough =>
      rw [if_neg (by rw [List.length_append]; omega)]
      cases done
      rw [List.drop_append_of_le_length (by omega),
        List.take_append_of_le_length (by rw [List.length_drop]; omega)]

theorem Local.within {fault : Fault} {length : Nat} (isLocal : Local read) :
    Local (within fault length read) := by
  intro cut whole pos result part done
  rw [Cursors.within] at done ⊢
  split at done
  · cases done
  · next enough =>
      have longer := part.length_le
      rw [if_neg (by omega)]
      exact isLocal part done

theorem Local.times (isLocal : Local read)
    (count : Nat) : Local (times read count) := by
  induction count with
  | zero => exact Local.pure _
  | succ count ih => exact isLocal.bind fun _ => ih.map

/-! ## Readings which move on -/

theorem bind_take_congr {fault : Fault} {count : Nat} {change : Bytes → Value}
    {other : Value → Reading Fault Other}
    (same : ∀ value window pos, pos ≤ window.length →
      next value window pos = other value window pos) :
    bind (map change (take fault count)) next =
      bind (map change (take fault count)) other := by
  funext window pos
  by_cases short : window.length < pos + count
  · simp [bind, map, take, short]
  · simp [bind, map, pure, take, short, same _ window (pos + count)
      (Nat.not_lt.mp short)]

/-- A reading which passes at least so many bytes, and not the window. -/
def Moves (least : Nat) (read : Reading Fault Value) : Prop :=
  ∀ ⦃window : Bytes⦄ ⦃pos : Nat⦄ ⦃value : Value⦄ ⦃after : Nat⦄,
    read window pos = .ok (value, after) →
      pos + least ≤ after ∧ (pos ≤ window.length → after ≤ window.length)

theorem Moves.pure (value : Value) :
    Moves 0 (pure value : Reading Fault Value) := by
  intro window pos value after done
  cases done
  exact ⟨Nat.le_refl _, id⟩

theorem Moves.fail (least : Nat) (fault : Fault) :
    Moves least (fail fault : Reading Fault Value) :=
  fun _ _ _ _ done => nomatch done

theorem Moves.take (fault : Fault) (count : Nat) :
    Moves count (take fault count) := by
  intro window pos value after done
  rw [Cursors.take] at done
  split at done
  · cases done
  · next enough =>
      cases done
      exact ⟨Nat.le_refl _, fun _ => Nat.not_lt.mp enough⟩

variable {least : Nat}

theorem Moves.bind {further : Nat} (moves : Moves least read)
    (nextMoves : ∀ value, Moves further (next value)) :
    Moves (least + further) (bind read next) := by
  intro window pos value after done
  rw [Cursors.bind] at done
  cases first : read window pos with
  | error fault =>
    rw [first] at done
    cases done
  | ok pair =>
    rw [first] at done
    obtain ⟨passes, stays⟩ := moves first
    obtain ⟨passesOn, staysOn⟩ := nextMoves pair.1 done
    exact ⟨by omega, staysOn ∘ stays⟩

theorem Moves.map {change : Value → Other} (moves : Moves least read) :
    Moves least (map change read) :=
  moves.bind fun _ => Moves.pure _

theorem Moves.within {fault : Fault} {length : Nat}
    (moves : Moves least read) :
    Moves least (within fault length read) := by
  intro window pos value after done
  rw [Cursors.within] at done
  split at done
  · cases done
  · exact moves done

theorem Moves.mono {fewer : Nat} (moves : Moves least read)
    (isFewer : fewer ≤ least) :
    Moves fewer read := by
  intro window pos value after done
  obtain ⟨passes, stays⟩ := moves done
  exact ⟨by omega, stays⟩

theorem Moves.times (moves : Moves 0 read)
    (count : Nat) : Moves 0 (times read count) := by
  induction count with
  | zero => exact Moves.pure _
  | succ count ih => exact moves.bind fun _ => ih.map

/-! ## Readings without a fault -/

/-- No window gives the fault. -/
def Never (fault : Fault) (read : Reading Fault Value) : Prop :=
  ∀ window pos, read window pos ≠ .error fault

section Never

variable {fault other : Fault} {read : Reading Fault Value}

theorem Never.pure (value : Value) :
    Never fault (pure value : Reading Fault Value) :=
  fun _ _ same => nomatch same

theorem Never.fail (differs : other ≠ fault) :
    Never fault (fail other : Reading Fault Value) := by
  intro window pos same
  exact differs (Except.error.inj same)

theorem Never.take (differs : other ≠ fault) (count : Nat) :
    Never fault (take other count) := by
  intro window pos
  rw [Cursors.take]
  split
  · intro same
    exact differs (Except.error.inj same)
  · exact fun same => nomatch same

theorem Never.within (differs : other ≠ fault) {length : Nat}
    (never : Never fault read) : Never fault (within other length read) := by
  intro window pos
  rw [Cursors.within]
  split
  · intro same
    exact differs (Except.error.inj same)
  · exact never window pos

theorem bind_ne_error {Next : Type} {next : Value → Reading Fault Next}
    {window : Bytes} {pos : Nat} (never : read window pos ≠ .error fault)
    (later : ∀ value after, read window pos = .ok (value, after) →
      next value window after ≠ .error fault) :
    bind read next window pos ≠ .error fault := by
  rw [Cursors.bind]
  cases first : read window pos with
  | error other =>
    rw [first] at never
    simpa using never
  | ok pair => exact later pair.1 pair.2 first

theorem Never.bind {Next : Type} {next : Value → Reading Fault Next}
    (never : Never fault read) (later : ∀ value, Never fault (next value)) :
    Never fault (bind read next) :=
  fun window pos => bind_ne_error (never window pos) fun value after _ =>
    later value window after

theorem Never.map {Next : Type} {change : Value → Next}
    (never : Never fault read) : Never fault (map change read) :=
  never.bind fun _ => Never.pure _

theorem times_ne_error {window : Bytes} {pos : Nat} (moves : Moves 0 read)
    (never : ∀ later, pos ≤ later → later ≤ window.length →
      read window later ≠ .error fault)
    (inside : pos ≤ window.length) (count : Nat) :
    times read count window pos ≠ .error fault := by
  induction count generalizing pos with
  | zero => exact Never.pure _ window pos
  | succ count ih =>
    refine bind_ne_error (never pos (Nat.le_refl _) inside)
      fun value after first => ?_
    obtain ⟨passes, stays⟩ := moves first
    refine bind_ne_error (ih (fun later isLater => never later (by omega))
      (stays inside)) fun _ after _ => Never.pure _ window after

end Never

end Hal0.Cursors
