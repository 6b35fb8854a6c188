import StreamConsumer.Configuration.Builder
import StreamConsumer.Proofs.Document.Conversion

/-!
# Builders as records of the last write

A builder is worked on in place: a call sets a field, looks one up or builds a configuration, and the
builder goes on as the call left it, also where the call had a fault. `Builder.respond` is one call,
`Builder.run` a row of them.

One call writes at most one field (`get_respond`), so a row of calls leaves in every field what the last
call without a fault wrote there (`get_run`). **Main statement** (`run_lastWrite`): what is built is the
configuration that the builder began with, with these values replaced by name, and what is looked up is
what would be built. Nothing but a setter without a fault changes a builder, and setters of different
fields commute.
-/

namespace StreamConsumer

namespace Configuration

/-- Values set in different fields do not depend on their order. -/
theorem set_comm (c : Configuration) {f g : Field} (h : f ≠ g) (v w : Value) :
    (c.set f v).set g w = (c.set g w).set f v := by
  apply ext_get
  intro k
  simp only [get_set]
  by_cases hf : k = f
  · rw [if_neg fun hg => h (hf.symm.trans hg), if_pos hf, if_pos hf]
  · rw [if_neg hf, if_neg hf]

/-! ### Replacing fields by name -/

/-- The values of the fields of a list for which there is one, by name. -/
def namedFrom (w : Field → Option Value) (fs : List Field) : List (Text × Value) :=
  fs.filterMap fun f => (w f).map fun v => (f.name, v)

/-- A name of a field is replaced, whatever other names follow. -/
theorem evolve_cons (c : Configuration) (f : Field) (v : Value) (params : List (Text × Value)) :
    c.evolve ((f.name, v) :: params) = (c.set f v).evolve params := by
  simp only [evolve, List.find?_cons, List.foldl_cons, Field.ofName?_name, Option.isNone_some]

/-- **Replacing by name.** Every field of the list for which there is a value has it, all else stays. -/
theorem exists_evolve_namedFrom (w : Field → Option Value) (fs : List Field) (c : Configuration) :
    ∃ c', c.evolve (namedFrom w fs) = .ok c' ∧
      ∀ g, c'.get g = if g ∈ fs then (w g).getD (c.get g) else c.get g := by
  induction fs generalizing c with
  | nil => exact ⟨c, rfl, fun g => rfl⟩
  | cons f fs ih =>
    rcases hw : w f with _ | v
    · obtain ⟨c', hc', hget⟩ := ih c
      refine ⟨c', ?_, fun g => ?_⟩
      · rw [namedFrom, List.filterMap_cons_none (by rw [hw]; rfl)]
        exact hc'
      · rw [hget]
        by_cases hg : g = f
        · simp [hg, hw]
        · simp [hg]
    · obtain ⟨c', hc', hget⟩ := ih (c.set f v)
      refine ⟨c', ?_, fun g => ?_⟩
      · rw [namedFrom, List.filterMap_cons_some (by rw [hw]; rfl), evolve_cons]
        exact hc'
      · rw [hget, get_set]
        by_cases hg : g = f
        · simp [hg, hw]
        · simp [hg]

end Configuration

namespace Builder

/-! ### Calls -/

/-- A call on a builder. -/
inductive Call where
  /-- A field is set. -/
  | set (f : Field) (v : Value)
  /-- A field is looked up. -/
  | get (f : Field)
  /-- A configuration is built. -/
  | build

/-- What a call comes back with. -/
inductive Reply where
  /-- The field is set. -/
  | done
  /-- The value of the field. -/
  | value (v : Value)
  /-- The configuration. -/
  | built (c : Configuration)

/-- Sets a field in place: the value is converted, then it is written. What was written before a fault
would stay. -/
def assign (f : Field) (v : Value) : ExceptT Fault (StateM Builder) Unit := do
  let w ← f.kind.coerce v
  modify fun b => ⟨b.pending.set f w⟩

/-- Makes a call on a builder in place. -/
def perform : Call → ExceptT Fault (StateM Builder) Reply
  | .set f v => do
    assign f v
    return .done
  | .get f => return .value ((← getThe Builder).get f)
  | .build => return .built (← getThe Builder).build

/-- What a call comes to, and the builder as the call leaves it. -/
def respond (b : Builder) (call : Call) : Except Fault Reply × Builder := (perform call).run.run b

/-- What the calls of a row come to, and the builder as they leave it. A fault ends no more than the call
that has it. -/
def run (b : Builder) : List Call → List (Except Fault Reply) × Builder
  | [] => ([], b)
  | call :: calls =>
    let (reply, next) := b.respond call
    let (replies, last) := next.run calls
    (reply :: replies, last)

variable {b : Builder} {f g : Field} {v w : Value}

/-- Setting in place is setting, except that a builder is left where there is a fault. -/
theorem respond_set_eq (b : Builder) (f : Field) (v : Value) : b.respond (.set f v) =
    match b.set f v with
    | .ok b' => (.ok .done, b')
    | .error e => (.error e, b) := by
  rcases hv : f.kind.coerce v with e | w
  · simp only [respond, perform, assign, Builder.set, hv]
    rfl
  · simp only [respond, perform, assign, Builder.set, hv]
    rfl

/-- A value that is kept is written. -/
theorem respond_set_of_converts (b : Builder) (h : f.kind.Converts v w) :
    b.respond (.set f v) = (.ok .done, ⟨b.pending.set f w⟩) := by
  rw [respond_set_eq, Builder.set, FieldKind.converts_iff.mp h]
  rfl

/-- A value that is refused leaves the builder as it was. -/
theorem respond_set_of_error (b : Builder) {e : Fault} (h : f.kind.coerce v = .error e) :
    b.respond (.set f v) = (.error e, b) := by
  rw [respond_set_eq, Builder.set, h]
  rfl

/-- A value is kept and written, or it is refused. -/
theorem respond_set_cases (b : Builder) (f : Field) (v : Value) :
    (∃ w, f.kind.Converts v w ∧ b.respond (.set f v) = (.ok .done, ⟨b.pending.set f w⟩)) ∨
      ∃ e, f.kind.coerce v = .error e ∧ b.respond (.set f v) = (.error e, b) := by
  rcases hv : f.kind.coerce v with e | w
  · exact .inr ⟨e, rfl, b.respond_set_of_error hv⟩
  · have hconverts := FieldKind.converts_iff.mpr hv
    exact .inl ⟨w, hconverts, b.respond_set_of_converts hconverts⟩

/-! ### What is written -/

/-- The value that a call writes in a field, if it sets that field and has no fault. -/
def Call.written? (f : Field) : Call → Option Value
  | .set g v => if f = g then (g.kind.coerce v).toOption else none
  | _ => none

/-- The value that the last of the calls that write in a field writes there. -/
def lastWritten? (calls : List Call) (f : Field) : Option Value :=
  calls.reverse.findSome? (Call.written? f)

/-- A setter writes what its value is converted to. -/
theorem written?_set_eq_some_iff : (Call.set f v).written? f = some w ↔ f.kind.Converts v w := by
  rw [Call.written?, if_pos rfl, Except.toOption_eq_some_iff, FieldKind.converts_iff]

/-- The first call counts if no later one writes in the field. -/
theorem lastWritten?_cons (call : Call) (calls : List Call) (f : Field) :
    lastWritten? (call :: calls) f = (lastWritten? calls f).or (call.written? f) := by
  rw [lastWritten?, List.reverse_cons, List.findSome?_append, List.findSome?_singleton]
  rfl

/-- **One call.** A field holds what the call wrote there, or what it held before. -/
theorem get_respond (b : Builder) (call : Call) (f : Field) :
    (b.respond call).2.get f = (call.written? f).getD (b.get f) := by
  cases call with
  | get g => rfl
  | build => rfl
  | set g v =>
    obtain ⟨w, hw, h⟩ | ⟨e, he, h⟩ := b.respond_set_cases g v
    · rw [h, Call.written?, FieldKind.converts_iff.mp hw]
      refine (b.pending.get_set g f w).trans ?_
      split <;> rfl
    · rw [h, Call.written?, he]
      split <;> rfl

/-- **A row of calls.** A field holds what was written there last, or what it held before. -/
theorem get_run (b : Builder) (calls : List Call) (f : Field) :
    (b.run calls).2.get f = (lastWritten? calls f).getD (b.get f) := by
  induction calls generalizing b with
  | nil => rfl
  | cons call calls ih =>
    rw [lastWritten?_cons]
    refine (ih (b.respond call).2).trans ?_
    rw [get_respond]
    cases lastWritten? calls f <;> rfl

/-- Later calls change nothing of what the calls before them came to. -/
theorem run_append (b : Builder) (calls later : List Call) :
    b.run (calls ++ later) =
      ((b.run calls).1 ++ ((b.run calls).2.run later).1, ((b.run calls).2.run later).2) := by
  induction calls generalizing b with
  | nil => rfl
  | cons call calls ih =>
    rw [List.cons_append, run, run]
    simp only [ih]
    rfl

/-- Every call has a reply. -/
theorem length_run (b : Builder) (calls : List Call) : (b.run calls).1.length = calls.length := by
  induction calls generalizing b with
  | nil => rfl
  | cons call calls ih => exact congrArg (· + 1) (ih _)

/-- What a call in a row comes to is decided by the calls before it. -/
theorem getElem?_run (b : Builder) (calls : List Call) (call : Call) (later : List Call) :
    (b.run (calls ++ call :: later)).1[calls.length]? = some ((b.run calls).2.respond call).1 := by
  rw [run_append, ← b.length_run calls, List.getElem?_append_right (Nat.le_refl _), Nat.sub_self]
  rfl

/-- Setters of different fields commute, whether they have faults or not. -/
theorem respond_set_comm (b : Builder) (h : f ≠ g) (v w : Value) :
    ((b.respond (.set f v)).2.respond (.set g w)).2 =
        ((b.respond (.set g w)).2.respond (.set f v)).2 ∧
      ((b.respond (.set f v)).2.respond (.set g w)).1 = (b.respond (.set g w)).1 ∧
      ((b.respond (.set g w)).2.respond (.set f v)).1 = (b.respond (.set f v)).1 := by
  rcases hv : f.kind.coerce v with e | v' <;> rcases hw : g.kind.coerce w with e' | w'
  · simp only [respond_set_of_error _ hv, respond_set_of_error _ hw, and_self]
  · simp only [respond_set_of_error _ hv, respond_set_of_converts _ (FieldKind.converts_iff.mpr hw),
      and_self]
  · simp only [respond_set_of_error _ hw, respond_set_of_converts _ (FieldKind.converts_iff.mpr hv),
      and_self]
  · simp only [respond_set_of_converts _ (FieldKind.converts_iff.mpr hw),
      respond_set_of_converts _ (FieldKind.converts_iff.mpr hv), b.pending.set_comm h, and_self]

/-- A call that has a fault leaves the builder as it was. -/
theorem respond_eq_error {call : Call} {e : Fault} (h : (b.respond call).1 = .error e) :
    (b.respond call).2 = b := by
  cases call with
  | get f => rfl
  | build => rfl
  | set f v =>
    obtain ⟨w, -, hset⟩ | ⟨e', -, hset⟩ := b.respond_set_cases f v
    · rw [hset] at h
      cases h
    · rw [hset]

/-- A setter has a fault exactly if it writes nothing. -/
theorem exists_respond_set_eq_error_iff (b : Builder) (f : Field) (v : Value) :
    (∃ e, (b.respond (.set f v)).1 = .error e) ↔ (Call.set f v).written? f = none := by
  obtain ⟨w, hw, hset⟩ | ⟨e, he, hset⟩ := b.respond_set_cases f v
  · rw [hset, written?_set_eq_some_iff.mpr hw]
    simp
  · rw [hset, Call.written?, he]
    exact iff_of_true ⟨e, rfl⟩ (ite_self none)

/-- **The last write.** Let a builder begin with a configuration, or with the defaults, and take any
calls. What is built next, whatever calls come later, is one configuration; what is looked up next in a
field is what this configuration holds there. Every field of it holds what the last setter of that field
without a fault wrote, or what the builder began with, so that it is the first configuration with these
values replaced by name. A setter writes what its value is converted to and has a fault if there is no
such thing. To build or to look up changes nothing, nor does a setter with a fault, and setters of
different fields commute. -/
theorem run_lastWrite (base : Option Configuration) (calls : List Call) :
    (∃ c : Configuration,
      (∀ later, ((ofConfiguration base).run (calls ++ .build :: later)).1[calls.length]? =
        some (.ok (.built c))) ∧
      (∀ f later, ((ofConfiguration base).run (calls ++ .get f :: later)).1[calls.length]? =
        some (.ok (.value (c.get f)))) ∧
      (∀ f, c.get f = (lastWritten? calls f).getD ((base.getD .standard).get f)) ∧
      (base.getD .standard).evolve (Configuration.namedFrom (lastWritten? calls) Field.all) = .ok c) ∧
    (∀ f v w, (Call.set f v).written? f = some w ↔ f.kind.Converts v w) ∧
    ∀ b : Builder, (b.respond .build).2 = b ∧ (∀ f, (b.respond (.get f)).2 = b) ∧
      (∀ f v, (∃ e, (b.respond (.set f v)).1 = .error e) ↔ (Call.set f v).written? f = none) ∧
      (∀ call e, (b.respond call).1 = .error e → (b.respond call).2 = b) ∧
      ∀ f g v w, f ≠ g →
        ((b.respond (.set f v)).2.respond (.set g w)).2 =
            ((b.respond (.set g w)).2.respond (.set f v)).2 ∧
          ((b.respond (.set f v)).2.respond (.set g w)).1 = (b.respond (.set g w)).1 ∧
          ((b.respond (.set g w)).2.respond (.set f v)).1 = (b.respond (.set f v)).1 := by
  refine ⟨?_, fun f v w => written?_set_eq_some_iff, fun b => ⟨rfl, fun f => rfl, ?_, ?_, ?_⟩⟩
  · have hget := (ofConfiguration base).get_run calls
    refine ⟨((ofConfiguration base).run calls).2.build, ?_, ?_, hget, ?_⟩
    · intro later
      exact getElem?_run _ calls .build later
    · intro f later
      exact getElem?_run _ calls (.get f) later
    · obtain ⟨c, hc, hnamed⟩ := Configuration.exists_evolve_namedFrom (lastWritten? calls) Field.all
        (base.getD .standard)
      have hsame : c = ((ofConfiguration base).run calls).2.build := by
        apply Configuration.ext_get
        intro f
        rw [hnamed, if_pos (Field.mem_all f)]
        exact (hget f).symm
      rw [hc, hsame]
  · exact b.exists_respond_set_eq_error_iff
  · intro call e he
    exact respond_eq_error he
  · intro f g v w h
    exact b.respond_set_comm h v w

/-- Calls that name a consumer, build, set the place where delivery starts to an acknowledgement policy of
the same word, try a wait that is a word, set the wait to one and a half seconds and take the name
back. -/
def mixedCalls : List Call :=
  [.set .durable (.text "d"), .build, .set .deliverPolicy (.policy (.ack .all)),
    .set .ackWait (.text "soon"), .set .ackWait (.float (.finite false 3 (-1))), .set .durable .null]

/-- What is built after them has the last of each, and what was built before them keeps the name. -/
theorem run_lastWrite_mixed : ∃ last early : Configuration,
    ((ofConfiguration none).run (mixedCalls ++ [.build])).1[6]? = some (.ok (.built last)) ∧
      last.durable = .null ∧ last.deliverPolicy = .policy (.deliver .all) ∧
      last.ackWait = .duration ⟨1500000, by decide, by decide⟩ ∧
    ((ofConfiguration none).run (mixedCalls ++ [.build])).1[1]? = some (.ok (.built early)) ∧
      early.durable = .text "d" := by
  obtain ⟨⟨last, hlast, -, hget, -⟩, -⟩ := run_lastWrite none mixedCalls
  obtain ⟨⟨early, hearly, -, hgetEarly, -⟩, -⟩ := run_lastWrite none [.set .durable (.text "d")]
  exact ⟨last, early, hlast [], hget .durable, hget .deliverPolicy, hget .ackWait,
    hearly (mixedCalls.drop 2 ++ [.build]), hgetEarly .durable⟩

end Builder

end StreamConsumer
