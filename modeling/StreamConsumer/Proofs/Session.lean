import StreamConsumer.Proofs.Configuration.BuilderRuns
import StreamConsumer.Proofs.Configuration.Resending
import StreamConsumer.Proofs.CreateRequest

/-!
# Sessions

A caller holds the configurations it has obtained and the builders it has made. It decodes answers,
begins builders, sets their fields, builds, settles configurations and prepares requests, in any order;
`Session.respond` is one such operation, `Session.run` a row of them.

The constructor of a configuration checks nothing, and yet its policies and its wait are always what
they should be (`Configuration.IsGoverned`): whatever an operation brings in was decoded, converted or
copied, `respond_cases`. **Main statement** (`run_isGoverned`): this holds after any operations, and an
operation that has a fault leaves all configurations and builders as they were.
-/

namespace StreamConsumer

/-- What a policy or a duration is decoded to is one, whatever it was decoded from. -/
theorem FieldKind.admits_of_decode_of_isConverted {k : FieldKind} (hk : k.IsConverted = true)
    {tag : Text} {v w : Value} (h : k.decode tag v = .ok w) : k.admits w = true := by
  cases k with
  | policy vocabulary =>
    obtain ⟨t, p, -, hp, rfl⟩ := decode_policy_eq_ok h
    exact beq_iff_eq.mpr (Vocabulary.ofWire?_eq_some hp).1
  | duration =>
    obtain ⟨n, u, -, rfl, -⟩ := decode_duration_eq_ok h
    rfl
  | _ => cases hk

namespace Configuration

variable {c : Configuration}

/-- The policies are members of their own vocabularies, and the wait is a duration. -/
structure IsGoverned (c : Configuration) : Prop where
  /-- Where delivery starts is a member of that vocabulary. -/
  deliver : ∃ p, c.deliverPolicy = .policy (.deliver p)
  /-- How messages are acknowledged is a member of that vocabulary. -/
  ack : ∃ p, c.ackPolicy = .policy (.ack p)
  /-- How fast messages are replayed is a member of that vocabulary. -/
  replay : ∃ p, c.replayPolicy = .policy (.replay p)
  /-- How long the server waits is a duration. -/
  wait : ∃ d, c.ackWait = .duration d

/-- A configuration is governed exactly if every field whose kind converts what it is set to holds a
value of its kind. -/
theorem isGoverned_iff :
    c.IsGoverned ↔ ∀ f : Field, f.kind.IsConverted = true → f.kind.admits (c.get f) = true := by
  constructor
  · rintro ⟨⟨p, hp⟩, ⟨a, ha⟩, ⟨r, hr⟩, ⟨d, hd⟩⟩ f hf
    cases f with
    | deliverPolicy =>
      rw [get, hp]
      rfl
    | ackPolicy =>
      rw [get, ha]
      rfl
    | replayPolicy =>
      rw [get, hr]
      rfl
    | ackWait =>
      rw [get, hd]
      rfl
    | _ => cases hf
  · intro h
    obtain ⟨p, hp, hpv⟩ := FieldKind.admits_policy (h .deliverPolicy rfl)
    obtain ⟨a, ha, hav⟩ := FieldKind.admits_policy (h .ackPolicy rfl)
    obtain ⟨r, hr, hrv⟩ := FieldKind.admits_policy (h .replayPolicy rfl)
    obtain ⟨d, hd⟩ := FieldKind.admits_duration (h .ackWait rfl)
    refine ⟨?_, ?_, ?_, ⟨d, hd⟩⟩
    · cases p with
      | deliver p => exact ⟨p, hp⟩
      | _ => cases hpv
    · cases a with
      | ack a => exact ⟨a, ha⟩
      | _ => cases hav
    · cases r with
      | replay r => exact ⟨r, hr⟩
      | _ => cases hrv

/-- The defaults are governed. -/
theorem isGoverned_standard : standard.IsGoverned :=
  isGoverned_iff.mpr fun f _ => wellTyped_standard f

/-- A configuration is governed whatever members it was read from. -/
theorem isGoverned_of_readFields {ms : Members} (h : readFields ms standard Field.all = .ok c) :
    c.IsGoverned := by
  apply isGoverned_iff.mpr
  intro f hf
  obtain ⟨-, hdefault⟩ | hdecode := get_of_readFields h f
  · rw [hdefault, ← get_standard]
    exact wellTyped_standard f
  · exact FieldKind.admits_of_decode_of_isConverted hf hdecode

/-- A configuration stays governed when a field is set to what a value is converted to. -/
theorem IsGoverned.set (hc : c.IsGoverned) {f : Field} {v w : Value} (h : f.kind.Converts v w) :
    (c.set f w).IsGoverned := by
  apply isGoverned_iff.mpr
  intro g hg
  rw [get_set]
  split
  · rename_i hgf
    subst hgf
    exact FieldKind.admits_of_converts hg h
  · exact isGoverned_iff.mp hc g hg

/-- Decisions are for other fields, so that a configuration stays governed whatever they are. -/
theorem IsGoverned.finalize (hc : c.IsGoverned) (o : Overrides) : (c.finalize o).IsGoverned := by
  apply isGoverned_iff.mpr
  intro f hf
  have hundecided : o.get f = .null := by
    cases f <;> first | rfl | cases hf
  rw [get_finalize, hundecided]
  exact isGoverned_iff.mp hc f hf

end Configuration

/-- What a caller holds. -/
structure Session where
  /-- The configurations obtained so far, in order. -/
  configurations : List Configuration := []
  /-- The builders made so far, in order. -/
  builders : List Builder := []

namespace Session

/-! ### Operations -/

/-- An operation of a caller. Configurations and builders are known by their places; an operation on a
place where there is none does nothing. -/
inductive Operation where
  /-- The answer of a server is decoded. -/
  | decode (d : Dialect) (source : Value)
  /-- The answer to a create request is decoded. -/
  | parse (d : Dialect) (source : Value)
  /-- The members of a dictionary are read as a configuration. Anything else has no members, and there
  the fault is the one that is given. -/
  | read (source : Value) (unreadable : Fault)
  /-- A builder is made, from a configuration or from the defaults. -/
  | begin (base : Option Nat)
  /-- A field of a builder is set. -/
  | set (builder : Nat) (f : Field) (v : Value)
  /-- A builder builds a configuration. -/
  | build (builder : Nat)
  /-- What was decided is put into a configuration. -/
  | finalize (base : Nat) (o : Overrides)
  /-- A request is prepared, from a configuration or from the defaults. -/
  | prepare (d : Dialect) (stream : Value) (base : Option Nat) (o : Overrides) (leading : Value)

/-- The configuration at a place, or none where no place is given. -/
def base? (s : Session) : Option Nat → Option (Option Configuration)
  | none => some none
  | some i => (s.configurations[i]?).map some

/-- A configuration that was obtained is kept; where there is a fault, all stays as it was. -/
def keep (s : Session) : Except Fault Configuration → Except Fault Unit × Session
  | .ok c => (.ok (), { s with configurations := s.configurations ++ [c] })
  | .error e => (.error e, s)

/-- What an operation comes to, and the session as it leaves it. A builder is worked on in place. -/
def respond (s : Session) : Operation → Except Fault Unit × Session
  | .decode d source => s.keep (Configuration.decodeResponse d source).result
  | .parse d source => s.keep (CreateRequest.parseResponse d source).result
  | .read source unreadable =>
    match source with
    | .dict ms => s.keep (Configuration.ofMembers ms).result
    | _ => s.keep (.error unreadable)
  | .begin base =>
    match s.base? base with
    | some base => (.ok (), { s with builders := s.builders ++ [.ofConfiguration base] })
    | none => (.ok (), s)
  | .set i f v =>
    match s.builders[i]? with
    | some b =>
      let (reply, b) := b.respond (.set f v)
      (reply.map fun _ => (), { s with builders := s.builders.set i b })
    | none => (.ok (), s)
  | .build i =>
    match s.builders[i]? with
    | some b => s.keep (.ok b.build)
    | none => (.ok (), s)
  | .finalize i o =>
    match s.configurations[i]? with
    | some c => s.keep (.ok (c.finalize o))
    | none => (.ok (), s)
  | .prepare d stream base o leading =>
    match s.base? base with
    | some base => s.keep ((CreateRequest.prepare d stream base o leading).result.map (·.config))
    | none => (.ok (), s)

/-- The session after a row of operations. A fault ends no more than the operation that has it. -/
def run (s : Session) : List Operation → Session
  | [] => s
  | op :: ops => (s.respond op).2.run ops

/-- How a session comes to a configuration. -/
inductive Obtains (s : Session) : Configuration → Prop where
  /-- It is read from members. -/
  | read {ms : Members} {c : Configuration}
    (h : Configuration.readFields ms .standard Field.all = .ok c) : Obtains s c
  /-- It is what a builder holds. -/
  | built {b : Builder} (h : b ∈ s.builders) : Obtains s b.build
  /-- It is the defaults, or one obtained before, with what was decided. -/
  | finalized {base : Option Configuration} (h : ∀ c ∈ base, c ∈ s.configurations) (o : Overrides) :
    Obtains s ((base.getD .standard).finalize o)

variable {s : Session}

/-- A base is one of the configurations so far. -/
theorem mem_of_base? {i : Option Nat} {base : Option Configuration} (h : s.base? i = some base) :
    ∀ c ∈ base, c ∈ s.configurations := by
  intro c hc
  cases i with
  | none =>
    obtain rfl := Option.some.inj h
    cases hc
  | some i =>
    obtain ⟨c', hc', rfl⟩ := Option.map_eq_some_iff.mp h
    obtain rfl := Option.some.inj hc
    exact List.mem_of_getElem? hc'

/-- To put back what is at a place changes nothing. -/
theorem set_of_getElem? {bs : List Builder} {i : Nat} {b : Builder} (h : bs[i]? = some b) :
    bs.set i b = bs := by
  obtain ⟨hi, rfl⟩ := List.getElem?_eq_some_iff.mp h
  exact List.set_getElem_self hi

/-- **One operation.** It leaves the session as it was, or it has no fault and adds a configuration, adds
a builder or writes in a builder what a value was converted to. -/
theorem respond_cases (s : Session) (op : Operation) :
    (s.respond op).2 = s ∨
    (∃ c, s.Obtains c ∧
      s.respond op = (.ok (), { s with configurations := s.configurations ++ [c] })) ∨
    (∃ base : Option Configuration, (∀ c ∈ base, c ∈ s.configurations) ∧
      s.respond op = (.ok (), { s with builders := s.builders ++ [.ofConfiguration base] })) ∨
    ∃ i b f v w, b ∈ s.builders ∧ f.kind.Converts v w ∧
      s.respond op = (.ok (), { s with builders := s.builders.set i ⟨b.pending.set f w⟩ }) := by
  have hkeep {r : Except Fault Configuration} (h : ∀ c, r = .ok c → s.Obtains c) :
      (s.keep r).2 = s ∨ ∃ c, s.Obtains c ∧
        s.keep r = (.ok (), { s with configurations := s.configurations ++ [c] }) := by
    cases r with
    | error e => exact .inl rfl
    | ok c => exact .inr ⟨c, h c rfl, rfl⟩
  cases op with
  | decode d source =>
    refine (hkeep fun c hc => ?_).imp_right .inl
    obtain ⟨doc, ms, -, -, hread⟩ := Configuration.exists_members_of_decodeResponse hc
    exact .read hread
  | parse d source =>
    refine (hkeep fun c hc => ?_).imp_right .inl
    obtain ⟨doc, ms, -, -, -, hread⟩ := CreateRequest.exists_members_of_parseResponse hc
    exact .read hread
  | read source unreadable =>
    cases source with
    | dict ms => exact (hkeep fun c hc => .read hc).imp_right .inl
    | _ => exact .inl rfl
  | begin base =>
    rw [respond]
    split
    · rename_i base hbase
      exact .inr (.inr (.inl ⟨base, mem_of_base? hbase, rfl⟩))
    · exact .inl rfl
  | set i f v =>
    rw [respond]
    split
    · rename_i b hb
      obtain ⟨w, hw, hset⟩ | ⟨e, -, hset⟩ := b.respond_set_cases f v
      · rw [hset]
        exact .inr (.inr (.inr ⟨i, b, f, v, w, List.mem_of_getElem? hb, hw, rfl⟩))
      · -- The builder that is put back is the one that was there.
        left
        rw [hset]
        show { s with builders := s.builders.set i b } = s
        rw [set_of_getElem? hb]
    · exact .inl rfl
  | build i =>
    rw [respond]
    split
    · rename_i b hb
      refine (hkeep fun c hc => ?_).imp_right .inl
      obtain rfl := Except.ok.inj hc
      exact .built (List.mem_of_getElem? hb)
    · exact .inl rfl
  | finalize i o =>
    rw [respond]
    split
    · rename_i c hc
      refine (hkeep fun c' hc' => ?_).imp_right .inl
      obtain rfl := Except.ok.inj hc'
      have hbase : ∀ c' ∈ some c, c' ∈ s.configurations := by
        rintro _ ⟨⟩
        exact List.mem_of_getElem? hc
      exact .finalized hbase o
    · exact .inl rfl
  | prepare d stream base o leading =>
    rw [respond]
    split
    · rename_i base hbase
      refine (hkeep fun c hc => ?_).imp_right .inl
      obtain ⟨r, hr, rfl⟩ := Except.map_eq_ok_iff.mp hc
      rw [CreateRequest.result_prepare] at hr
      split at hr
      · obtain ⟨t, -, rfl⟩ := Except.map_eq_ok_iff.mp hr
        exact .finalized (mem_of_base? hbase) o
      · cases hr
    · exact .inl rfl

/-! ### What holds along a run -/

/-- All configurations and all builders of a session are governed. -/
structure IsGoverned (s : Session) : Prop where
  /-- So is every configuration. -/
  configurations : ∀ c ∈ s.configurations, c.IsGoverned
  /-- So is what every builder holds. -/
  builders : ∀ b ∈ s.builders, b.pending.IsGoverned

/-- In a governed session a base is governed, and so are the defaults that stand where there is none. -/
theorem IsGoverned.getD (hs : s.IsGoverned) {base : Option Configuration}
    (h : ∀ c ∈ base, c ∈ s.configurations) : (base.getD .standard).IsGoverned := by
  cases base with
  | none => exact Configuration.isGoverned_standard
  | some c => exact hs.configurations c (h c rfl)

/-- A governed session comes to governed configurations only. -/
theorem IsGoverned.obtains (hs : s.IsGoverned) {c : Configuration} (h : s.Obtains c) :
    c.IsGoverned := by
  cases h with
  | read h => exact Configuration.isGoverned_of_readFields h
  | built h => exact hs.builders _ h
  | finalized h o => exact (hs.getD h).finalize o

/-- Every operation leaves a governed session governed. -/
theorem IsGoverned.respond (hs : s.IsGoverned) (op : Operation) : (s.respond op).2.IsGoverned := by
  obtain h | ⟨c, hc, h⟩ | ⟨base, hbase, h⟩ | ⟨i, b, f, v, w, hb, hw, h⟩ := s.respond_cases op
  · rw [h]
    exact hs
  · rw [h]
    refine ⟨fun c' hc' => ?_, hs.builders⟩
    obtain hc' | hc' := List.mem_append.mp hc'
    · exact hs.configurations c' hc'
    · obtain rfl := List.mem_singleton.mp hc'
      exact hs.obtains hc
  · rw [h]
    refine ⟨hs.configurations, fun b hb => ?_⟩
    obtain hb | hb := List.mem_append.mp hb
    · exact hs.builders b hb
    · obtain rfl := List.mem_singleton.mp hb
      exact hs.getD hbase
  · rw [h]
    refine ⟨hs.configurations, fun b' hb' => ?_⟩
    obtain hb' | rfl := List.mem_or_eq_of_mem_set hb'
    · exact hs.builders b' hb'
    · exact (hs.builders b hb).set hw

/-- So does a row of them. -/
theorem IsGoverned.run (hs : s.IsGoverned) (ops : List Operation) : (s.run ops).IsGoverned := by
  induction ops generalizing s with
  | nil => exact hs
  | cons op ops ih => exact ih (hs.respond op)

/-- An operation that has a fault leaves the session as it was. -/
theorem respond_eq_error {op : Operation} {e : Fault} (h : (s.respond op).1 = .error e) :
    (s.respond op).2 = s := by
  obtain hsame | ⟨c, -, hok⟩ | ⟨base, -, hok⟩ | ⟨i, b, f, v, w, -, -, hok⟩ := s.respond_cases op
  · exact hsame
  all_goals
    rw [hok] at h
    cases h

/-- No operation changes a configuration that was obtained before. -/
theorem configurations_prefix (s : Session) (op : Operation) :
    s.configurations <+: (s.respond op).2.configurations := by
  have hsame (h : (s.respond op).2.configurations = s.configurations) :
      s.configurations <+: (s.respond op).2.configurations := h ▸ List.prefix_refl _
  obtain h | ⟨c, -, h⟩ | ⟨base, -, h⟩ | ⟨i, b, f, v, w, -, -, h⟩ := s.respond_cases op
  · exact hsame (by rw [h])
  · rw [h]
    exact List.prefix_append _ _
  · exact hsame (by rw [h])
  · exact hsame (by rw [h])

/-- **Governance.** After any operations whatever, every configuration obtained and what every builder
holds has policies of their own vocabularies and a duration for its wait. An operation that comes next
leaves all of them as they were if it has a fault, and the configurations in any case. -/
theorem run_isGoverned (ops : List Operation) :
    (∀ c ∈ (run {} ops).configurations, c.IsGoverned) ∧
    (∀ b ∈ (run {} ops).builders, b.pending.IsGoverned) ∧
    ∀ op, (∀ e, ((run {} ops).respond op).1 = .error e → ((run {} ops).respond op).2 = run {} ops) ∧
      (run {} ops).configurations <+: ((run {} ops).respond op).2.configurations := by
  have hempty : IsGoverned {} := ⟨List.forall_mem_nil _, List.forall_mem_nil _⟩
  obtain ⟨hconfigurations, hbuilders⟩ := hempty.run ops
  refine ⟨hconfigurations, hbuilders, fun op => ⟨fun e he => respond_eq_error he, ?_⟩⟩
  exact configurations_prefix _ op

/-- Operations that set a builder's place to start to an acknowledgement policy of the same word, try a
list for a policy and a wait of more seconds than a duration can have, build, decide on a name and
prepare a request. -/
def mixedOperations : List Operation :=
  [.begin none, .set 0 .deliverPolicy (.policy (.ack .all)), .set 0 .ackPolicy (.list []),
    .set 0 .ackWait (.int 1000000000000000), .build 0, .finalize 0 { durable := .text "d" },
    .prepare .strict (.text "S") (some 1) {} .null]

/-- They come to three governed configurations, and a word for a wait leaves all as it is. -/
theorem run_isGoverned_mixed :
    (run {} mixedOperations).configurations.length = 3 ∧
    (run {} mixedOperations).builders.length = 1 ∧
    (∀ c ∈ (run {} mixedOperations).configurations, c.IsGoverned) ∧
    ∃ e, ((run {} mixedOperations).respond (.set 0 .ackWait (.text "soon"))).1 = .error e ∧
      ((run {} mixedOperations).respond (.set 0 .ackWait (.text "soon"))).2 =
        run {} mixedOperations := by
  obtain ⟨hconfigurations, -, hstep⟩ := run_isGoverned mixedOperations
  refine ⟨by decide +kernel, by decide +kernel, hconfigurations, _, rfl, ?_⟩
  exact (hstep _).1 _ rfl

end Session

end StreamConsumer
