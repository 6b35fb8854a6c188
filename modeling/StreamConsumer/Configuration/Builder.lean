import StreamConsumer.Configuration.Basic

/-!
# Builders

A `Builder` gathers settings one by one. Words become policies and seconds become durations as they
are set; a value that cannot become either is refused and leaves the builder as it was. What is set
last in a field is what `Builder.build` puts there, `Builder.get_set`.
-/

namespace StreamConsumer

/-- Settings on the way to a configuration. -/
structure Builder where
  /-- The settings so far. -/
  pending : Configuration
  deriving Repr

namespace Builder

/-- A builder that starts from a configuration, or from the defaults. -/
def ofConfiguration (base : Option Configuration) : Builder := ⟨base.getD .standard⟩

/-- The builder with a field set. -/
def set (b : Builder) (f : Field) (v : Value) : Except Fault Builder :=
  (f.kind.coerce v).map fun w => ⟨b.pending.set f w⟩

/-- The value set in a field. -/
def get (b : Builder) (f : Field) : Value := b.pending.get f

/-- The configuration with all settings. -/
def build (b : Builder) : Configuration := b.pending

/-- What is set in one field is found there and nowhere else. -/
theorem get_set {b b' : Builder} {f : Field} {v : Value} (h : b.set f v = .ok b') (g : Field) :
    ∃ w, f.kind.coerce v = .ok w ∧ b'.get g = if g = f then w else b.get g := by
  rcases hw : f.kind.coerce v with e | w
  · simp [set, hw, Except.map] at h
  · refine ⟨w, rfl, ?_⟩
    simp only [set, hw, Except.map, Except.ok.injEq] at h
    subst h
    exact b.pending.get_set f g w

end Builder

end StreamConsumer
