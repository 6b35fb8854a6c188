import StreamConsumer.Proofs.CreateRequest

/-!
# What a subject names

A subject is a leading part followed by tokens, each after a dot (`dotted`): the stream, and the durable
name where there is one, come last, behind tokens that are always the same. The leading part may hold
any of those tokens itself, so a subject is taken apart from its end. Tokens without a dot are found
there again, `dotted_eq_dotted_iff`; between the two forms the third token from the end decides.
**Main statement** (`subjectOf_identifies`): subjects of streams and durable names without dots are
equal only if all that they were made of is.
-/

namespace StreamConsumer.CreateRequest

/-! ### Tokens after dots -/

/-- The code point between tokens. -/
def dot : CodePoint := 0x2E

/-- A text followed by tokens, each after a dot. -/
def dotted (leading : Text) (tokens : List Text) : Text :=
  tokens.foldl (fun t token => t ++ dot :: token) leading

/-- The first token is joined to what leads. -/
theorem dotted_cons (leading token : Text) (tokens : List Text) :
    dotted leading (token :: tokens) = dotted (leading ++ dot :: token) tokens := rfl

/-- Later tokens follow what the earlier ones were joined to. -/
theorem dotted_append (leading : Text) (tokens tokens' : List Text) :
    dotted leading (tokens ++ tokens') = dotted (dotted leading tokens) tokens' :=
  List.foldl_append

/-- What stands behind the last dot does not reach over another one. -/
theorem eq_nil_of_dot_cons {c s t : Text} (hs : dot ∉ s) (h : dot :: s = c ++ dot :: t) :
    c = [] ∧ s = t := by
  cases c with
  | nil => exact ⟨rfl, (List.cons.inj h).2⟩
  | cons k c =>
    obtain ⟨-, rfl⟩ := List.cons.inj h
    exact absurd (List.mem_append_right c List.mem_cons_self) hs

/-- What follows the last dot is found again. -/
theorem append_dot_eq_append_dot_iff {a b s t : Text} (hs : dot ∉ s) (ht : dot ∉ t) :
    a ++ dot :: s = b ++ dot :: t ↔ a = b ∧ s = t := by
  constructor
  · intro h
    obtain ⟨c, rfl, hrest⟩ | ⟨c, rfl, hrest⟩ := List.append_eq_append_iff.mp h
    · obtain ⟨rfl, hst⟩ := eq_nil_of_dot_cons hs hrest
      exact ⟨(List.append_nil a).symm, hst⟩
    · obtain ⟨rfl, hts⟩ := eq_nil_of_dot_cons ht hrest
      exact ⟨List.append_nil b, hts.symm⟩
  · rintro ⟨rfl, rfl⟩
    rfl

/-- As many tokens without dots are found again, and so is what stands before them. -/
theorem dotted_eq_dotted_iff {ts us : List Text} (hlength : ts.length = us.length)
    (hts : ∀ t ∈ ts, dot ∉ t) (hus : ∀ u ∈ us, dot ∉ u) {a b : Text} :
    dotted a ts = dotted b us ↔ a = b ∧ ts = us := by
  induction ts generalizing us a b with
  | nil =>
    obtain rfl := List.length_eq_zero_iff.mp hlength.symm
    simp [dotted]
  | cons t ts ih =>
    obtain ⟨u, us, rfl⟩ := List.exists_cons_of_length_eq_add_one hlength.symm
    obtain ⟨ht, hts⟩ := List.forall_mem_cons.mp hts
    obtain ⟨hu, hus⟩ := List.forall_mem_cons.mp hus
    rw [dotted_cons, dotted_cons, ih (Nat.succ.inj hlength) hts hus,
      append_dot_eq_append_dot_iff ht hu, List.cons.injEq, and_assoc]

/-! ### The two forms -/

/-- The durable name that a value gives: what counts as nothing gives none. -/
def durableName? (durable : Value) : Option Text :=
  if durable.truthy then some durable.display else none

/-- A durable name is not there, or it is a text without a dot. -/
def IsDurableName (durable : Value) : Prop :=
  durable = .null ∨ ∃ n : Text, durable = .text n ∧ dot ∉ n

/-- No durable consumer is named: there is no name, or it is empty. -/
def NamesNothing (durable : Value) : Prop := durable = .null ∨ durable = .text []

/-- The name in a subject, if there is one, has no dot. -/
theorem IsDurableName.not_mem {durable : Value} (h : IsDurableName durable) :
    ∀ n ∈ durableName? durable, dot ∉ n := by
  obtain rfl | ⟨n, rfl, hn⟩ := h
  · nofun
  · intro m hm
    unfold durableName? at hm
    split at hm
    · obtain rfl := Option.some.inj hm
      exact hn
    · cases hm

/-- Two durable names are the same, or neither names anything. -/
theorem durableName?_eq_iff {durable durable' : Value} (h : IsDurableName durable)
    (h' : IsDurableName durable') : durableName? durable = durableName? durable' ↔
      durable = durable' ∨ NamesNothing durable ∧ NamesNothing durable' := by
  have hcases {v : Value} (hv : IsDurableName v) :
      NamesNothing v ∧ durableName? v = none ∨
        ¬ NamesNothing v ∧ ∃ n, v = .text n ∧ durableName? v = some n := by
    obtain rfl | ⟨n, rfl, -⟩ := hv
    · exact .inl ⟨.inl rfl, rfl⟩
    · cases n with
      | nil => exact .inl ⟨.inr rfl, rfl⟩
      | cons c n => exact .inr ⟨by simp [NamesNothing], _, rfl, rfl⟩
  obtain ⟨hnothing, hname⟩ | ⟨hnothing, n, rfl, hname⟩ := hcases h <;>
    obtain ⟨hnothing', hname'⟩ | ⟨hnothing', n', rfl, hname'⟩ := hcases h'
  · simp [hname, hname', hnothing, hnothing']
  · have hne : durable ≠ .text n' := by
      rintro rfl
      exact hnothing' hnothing
    simp [hname, hname', hnothing', hne]
  · have hne : Value.text n ≠ durable' := by
      rintro rfl
      exact hnothing hnothing'
    simp [hname, hname', hnothing, hne]
  · simp [hname, hname', hnothing]

/-- The tokens behind the leading part of a subject. -/
def subjectTokens (stream : Text) : Option Text → List Text
  | none => ["CONSUMER", "CREATE", stream]
  | some name => ["CONSUMER", "DURABLE", "CREATE", stream, name]

/-- A subject is its tokens with dots between them. -/
theorem subjectOf_eq_dotted (stream durable leading : Value) :
    subjectOf stream durable leading =
      dotted leading.display (subjectTokens stream.display (durableName? durable)) := by
  have hdurable : Text.ofString ".CONSUMER.DURABLE.CREATE." = dot :: Text.ofString "CONSUMER" ++
      dot :: Text.ofString "DURABLE" ++ dot :: Text.ofString "CREATE" ++ [dot] := by decide
  have hephemeral : Text.ofString ".CONSUMER.CREATE." = dot :: Text.ofString "CONSUMER" ++
      dot :: Text.ofString "CREATE" ++ [dot] := by decide
  have hdot : Text.ofString "." = [dot] := by decide
  unfold subjectOf durableName?
  split
  · simp [hdurable, hdot, subjectTokens, dotted]
  · simp [hephemeral, subjectTokens, dotted]

variable {stream stream' : Text} {name name' : Option Text} {leading leading' : Text}

/-- Neither the fixed tokens nor the given ones have a dot. -/
theorem dot_not_mem_subjectTokens (hs : dot ∉ stream) (hn : ∀ n ∈ name, dot ∉ n) :
    ∀ t ∈ subjectTokens stream name, dot ∉ t := by
  have hfixed : dot ∉ Text.ofString "CONSUMER" ∧ dot ∉ Text.ofString "DURABLE" ∧
      dot ∉ Text.ofString "CREATE" := by decide
  cases name with
  | none => simp [subjectTokens, hfixed, hs]
  | some n => simp [subjectTokens, hfixed, hs, hn n rfl]

/-- A durable consumer and one that is not have different subjects: the third token from the end is
`CREATE` in one and `CONSUMER` in the other. -/
theorem dotted_durable_ne_ephemeral {n : Text} (hs : dot ∉ stream) (hn : dot ∉ n)
    (hs' : dot ∉ stream') :
    dotted leading (subjectTokens stream (some n)) ≠
      dotted leading' (subjectTokens stream' none) := by
  intro h
  have hsplit : subjectTokens stream (some n) =
      [Text.ofString "CONSUMER", Text.ofString "DURABLE"] ++ [Text.ofString "CREATE", stream, n] := rfl
  have hdurable : ∀ t ∈ subjectTokens stream (some n), dot ∉ t :=
    dot_not_mem_subjectTokens hs (by simpa using hn)
  have hephemeral : ∀ t ∈ subjectTokens stream' none, dot ∉ t :=
    dot_not_mem_subjectTokens hs' (by simp)
  have hlast : ∀ t ∈ [Text.ofString "CREATE", stream, n], dot ∉ t := fun t ht =>
    hdurable t (hsplit ▸ List.mem_append_right _ ht)
  rw [hsplit, dotted_append, dotted_eq_dotted_iff (by rfl) hlast hephemeral] at h
  obtain ⟨hthird, -⟩ := List.cons.inj h.2
  exact absurd hthird (by decide)

/-- The leading part, the stream and the durable name are found again. -/
theorem dotted_subjectTokens_eq_iff (hs : dot ∉ stream) (hn : ∀ n ∈ name, dot ∉ n)
    (hs' : dot ∉ stream') (hn' : ∀ n ∈ name', dot ∉ n) :
    dotted leading (subjectTokens stream name) = dotted leading' (subjectTokens stream' name') ↔
      leading = leading' ∧ stream = stream' ∧ name = name' := by
  have hts := dot_not_mem_subjectTokens hs hn
  have hus := dot_not_mem_subjectTokens hs' hn'
  cases name with
  | none =>
    cases name' with
    | none =>
      rw [dotted_eq_dotted_iff (by rfl) hts hus]
      simp [subjectTokens]
    | some n' =>
      have hne : dotted leading' (subjectTokens stream' (some n')) ≠
          dotted leading (subjectTokens stream none) :=
        dotted_durable_ne_ephemeral hs' (hn' n' rfl) hs
      simp [hne.symm]
  | some n =>
    cases name' with
    | none => simp [dotted_durable_ne_ephemeral hs (hn n rfl) hs']
    | some n' =>
      rw [dotted_eq_dotted_iff (by rfl) hts hus]
      simp [subjectTokens]

/-- **Identity.** The subjects of streams and durable names without dots are equal exactly if the
leading parts, the streams and the durable names are, or neither durable name names anything; the
leading parts may be any texts. In particular a durable consumer never has the subject of one that is
not. -/
theorem subjectOf_identifies {stream stream' : Text} (hs : dot ∉ stream) (hs' : dot ∉ stream')
    {durable durable' : Value} (hd : IsDurableName durable) (hd' : IsDurableName durable')
    (leading leading' : Text) :
    (subjectOf (.text stream) durable (.text leading) =
        subjectOf (.text stream') durable' (.text leading') ↔
      leading = leading' ∧ stream = stream' ∧
        (durable = durable' ∨ NamesNothing durable ∧ NamesNothing durable')) ∧
    (¬ NamesNothing durable → NamesNothing durable' →
      subjectOf (.text stream) durable (.text leading) ≠
        subjectOf (.text stream') durable' (.text leading')) := by
  have hiff : subjectOf (.text stream) durable (.text leading) =
      subjectOf (.text stream') durable' (.text leading') ↔
        leading = leading' ∧ stream = stream' ∧
          (durable = durable' ∨ NamesNothing durable ∧ NamesNothing durable') := by
    rw [subjectOf_eq_dotted, subjectOf_eq_dotted, ← durableName?_eq_iff hd hd']
    exact dotted_subjectTokens_eq_iff hs hd.not_mem hs' hd'.not_mem
  refine ⟨hiff, ?_⟩
  intro hdurable hephemeral heq
  obtain ⟨-, -, rfl | ⟨hnothing, -⟩⟩ := hiff.mp heq
  · exact hdurable hephemeral
  · exact hdurable hnothing

/-- A durable name, a stream and a leading part made of the fixed tokens do not make the subject of a
stream without a durable name. -/
theorem subjectOf_identifies_fixedTokens :
    subjectOf (.text "CREATE") (.text "CREATE") (.text "$JS.API") ≠
      subjectOf (.text "CREATE") (.text []) (.text "$JS.API.CONSUMER.DURABLE") := by
  have hstream : dot ∉ Text.ofString "CREATE" := by decide
  have hdurable : IsDurableName (.text "CREATE") := .inr ⟨_, rfl, hstream⟩
  have hnone : IsDurableName (.text []) := .inr ⟨[], rfl, by simp⟩
  have hidentity := subjectOf_identifies hstream hstream hdurable hnone "$JS.API"
    "$JS.API.CONSUMER.DURABLE"
  exact hidentity.2 (by simp [NamesNothing, Text.ofString]) (.inr rfl)

end StreamConsumer.CreateRequest
