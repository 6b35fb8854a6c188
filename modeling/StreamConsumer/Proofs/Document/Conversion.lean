import StreamConsumer.Proofs.Calendar.Seconds
import StreamConsumer.Proofs.Document.Decoding

/-!
# What a value set by hand is kept as

A field that is set by hand keeps texts, integers and dates as they are, whatever was given for them;
a policy is looked up by its word, and a number of seconds becomes a duration. `FieldKind.Converts` states
that rule, `converts_iff` says that it is what `FieldKind.coerce` does and that whatever it leaves out is
refused. What is kept for a policy or a duration is one of its kind, `admits_of_converts`.
-/

namespace StreamConsumer

/-- A member of a vocabulary is found by its word alone. -/
theorem Vocabulary.ofWire?_eq_some_iff {v : Vocabulary} {word : Text} {p : Policy} :
    v.ofWire? word = some p ↔ p.vocabulary = v ∧ p.wire = word := by
  constructor
  · exact ofWire?_eq_some
  · rintro ⟨rfl, rfl⟩
    exact ofWire?_wire p

namespace FieldKind

/-- The rule by which a value set by hand is kept. -/
inductive Converts : FieldKind → Value → Value → Prop where
  /-- A text is kept as it is, and so is anything else given for one. -/
  | text (v : Value) : Converts text v v
  /-- So it is with integers. -/
  | integer (v : Value) : Converts integer v v
  /-- So it is with dates. -/
  | date (v : Value) : Converts date v v
  /-- A policy is the member with the word that was given; a member of another vocabulary counts as its
  word. -/
  | policy {v : Value} {p : Policy} (h : v.text? = some p.wire) :
    Converts (policy p.vocabulary) v (.policy p)
  /-- A duration is kept as it is. -/
  | duration (d : Duration) : Converts duration (.duration d) (.duration d)
  /-- Whole seconds are counted exactly. -/
  | seconds {n : Int} {d : Duration} (h : d.micros = n * microsPerSecond) :
    Converts duration (.int n) (.duration d)
  /-- A truth value counts as one second or none. -/
  | truth {b : Bool} {d : Duration} (h : d.micros = if b then microsPerSecond else 0) :
    Converts duration (.bool b) (.duration d)
  /-- Of other seconds the whole ones are counted exactly and the fraction, a million times itself in
  binary64, is rounded to microseconds, a half to the even neighbour. -/
  | fraction {negative : Bool} {m : ℕ} {e : ℤ} {n : ℕ} {d : Duration}
    (h : Duration.RoundsToMicros (Binary64.magnitude m e) n)
    (hd : d.micros = if negative then -(n : ℤ) else n) :
    Converts duration (.float (.finite negative m e)) (.duration d)

/-- A member of a vocabulary is kept for what has its word. -/
theorem member_eq_ok_iff {vocabulary : Vocabulary} {v : Value} {p : Policy} :
    member vocabulary v = .ok p ↔ p.vocabulary = vocabulary ∧ v.text? = some p.wire := by
  have hfound : member vocabulary v = .ok p ↔ member? vocabulary v = some p := by
    unfold member
    cases member? vocabulary v <;> simp
  rw [hfound, member?, Option.bind_eq_bind, Option.bind_eq_some_iff]
  simp only [Vocabulary.ofWire?_eq_some_iff]
  constructor
  · rintro ⟨word, hword, hp, rfl⟩
    exact ⟨hp, hword⟩
  · rintro ⟨hp, hword⟩
    exact ⟨p.wire, hword, hp, rfl⟩

/-- Seconds become a duration by the rule for seconds. -/
theorem durationOfSeconds_eq_ok_iff {v : Value} {d : Duration} :
    durationOfSeconds v = .ok d ↔ Converts duration v (.duration d) := by
  have hofMicros {micros : Int} {r : Except DurationError Duration}
      (hr : r = Duration.ofMicros micros) :
      r.mapError Fault.duration = .ok d ↔ d.micros = micros := by
    rw [Except.mapError_eq_ok_iff, hr, Duration.ofMicros_eq_ok_iff]
  constructor
  · intro h
    cases v with
    | duration d' =>
      obtain rfl := Except.ok.inj h
      exact .duration d'
    | int n => exact .seconds ((hofMicros rfl).mp h)
    | bool b =>
      refine .truth ((hofMicros ?_).mp h)
      cases b <;> rfl
    | float x =>
      cases x with
      | finite negative m e =>
        have hmicros := (hofMicros rfl).mp h
        obtain ⟨n, hn⟩ := Duration.exists_microsOfSeconds m e
        rw [Duration.microsOfSeconds_eq, hn] at hmicros
        exact .fraction (Duration.roundsToMicros_iff.mpr hn) hmicros
      | infinite => cases h
    | _ => cases h
  · intro h
    cases h with
    | duration => rfl
    | seconds h => exact (hofMicros rfl).mpr h
    | @truth b _ h =>
      refine (hofMicros ?_).mpr h
      cases b <;> rfl
    | fraction h hd =>
      refine (hofMicros rfl).mpr ?_
      rw [Duration.microsOfSeconds_eq, Duration.roundsToMicros_iff.mp h]
      exact hd

/-- **Conversion.** A value is kept exactly as the rule says, and refused where it says nothing. -/
theorem converts_iff {k : FieldKind} {v w : Value} : k.Converts v w ↔ k.coerce v = .ok w := by
  cases k with
  | policy vocabulary =>
    rw [coerce, Except.map_eq_ok_iff]
    constructor
    · rintro ⟨⟩
      rename_i p hword
      exact ⟨p, member_eq_ok_iff.mpr ⟨rfl, hword⟩, rfl⟩
    · rintro ⟨p, hp, rfl⟩
      obtain ⟨rfl, hword⟩ := member_eq_ok_iff.mp hp
      exact .policy hword
  | duration =>
    rw [coerce, Except.map_eq_ok_iff]
    constructor
    · intro h
      obtain ⟨d, rfl⟩ : ∃ d, w = .duration d := by cases h <;> exact ⟨_, rfl⟩
      exact ⟨d, durationOfSeconds_eq_ok_iff.mpr h, rfl⟩
    · rintro ⟨d, hd, rfl⟩
      exact durationOfSeconds_eq_ok_iff.mp hd
  | text => exact ⟨fun h => by cases h; rfl, fun h => Except.ok.inj h ▸ .text v⟩
  | integer => exact ⟨fun h => by cases h; rfl, fun h => Except.ok.inj h ▸ .integer v⟩
  | date => exact ⟨fun h => by cases h; rfl, fun h => Except.ok.inj h ▸ .date v⟩

/-- Whether a field of a kind converts what it is set to; the others keep anything. -/
def IsConverted : FieldKind → Bool
  | policy _ => true
  | duration => true
  | _ => false

/-- What is kept for a policy or a duration is one. -/
theorem admits_of_converts {k : FieldKind} {v w : Value} (hk : k.IsConverted = true)
    (h : k.Converts v w) : k.admits w = true := by
  cases h with
  | policy => exact beq_self_eq_true _
  | text => cases hk
  | integer => cases hk
  | date => cases hk
  | _ => rfl

end FieldKind

end StreamConsumer
