import PatternTree.Traced

/-!
# Computations that change a value in place

An `InPlace` computation is a traced computation with a value at hand that it can overwrite. What it
has written stays written, also when it ends with a fault later on. So a call that can fail leaves
its value as it was only if it checks everything before it writes anything, and that is for its
proof to show.
-/

namespace PatternTree

/-- How a computation on a value ended, and what it left of the value. -/
structure Changed (σ α : Type) where
  /-- the value afterwards -/
  after : σ
  /-- the events and the end of the computation -/
  result : Traced α

/-- A traced computation that works on a value in place. -/
def InPlace (σ α : Type) : Type :=
  σ → Changed σ α

namespace InPlace

variable {σ α β : Type}

/-- Ends with a result and leaves the value alone. -/
protected def pure (a : α) : InPlace σ α :=
  fun s => ⟨s, pure a⟩

/-- Goes on with the result of the first computation and with the value that it left; its fault ends
the whole. -/
protected def bind (x : InPlace σ α) (f : α → InPlace σ β) : InPlace σ β := fun s =>
  let first := x s
  match first.result.outcome with
  | .ok a =>
    let second := f a first.after
    ⟨second.after, first.result.events ++ second.result.events, second.result.outcome⟩
  | .error e => ⟨first.after, first.result.events, .error e⟩

instance : Monad (InPlace σ) where
  pure := InPlace.pure
  bind := InPlace.bind

/-- Looks at the value. -/
def look : InPlace σ σ :=
  fun s => ⟨s, pure s⟩

/-- Overwrites the value. -/
def update (f : σ → σ) : InPlace σ Unit :=
  fun s => ⟨f s, pure ()⟩

/-- Runs a computation that has nothing to do with the value. -/
def check (t : Traced α) : InPlace σ α :=
  fun s => ⟨s, t⟩

/-- After a check that succeeds the rest works on the same value. -/
theorem check_bind_ok {t : Traced α} {a : α} (h : t.outcome = .ok a) (f : α → InPlace σ β) (s : σ) :
    (check t >>= f) s =
      ⟨(f a s).after, t.events ++ (f a s).result.events, (f a s).result.outcome⟩ := by
  change InPlace.bind (check t) f s = _
  simp only [InPlace.bind, check, h]

/-- A check that fails ends the computation before anything is written. -/
theorem check_bind_error {t : Traced α} {e : Fault} (h : t.outcome = .error e)
    (f : α → InPlace σ β) (s : σ) : (check t >>= f) s = ⟨s, t.events, .error e⟩ := by
  change InPlace.bind (check t) f s = _
  simp only [InPlace.bind, check, h]

end InPlace

end PatternTree
