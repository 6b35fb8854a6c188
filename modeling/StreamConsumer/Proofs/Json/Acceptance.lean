import StreamConsumer.Proofs.Json.Reading
import StreamConsumer.Proofs.Json.RoundTrip

/-!
# What is written

A plain value is made of constants, integers of 64 bits, texts, lists and dictionaries under texts,
`Value.Plain`. Nothing but a text can keep it from being written: the writer of a dialect accepts
exactly the plain values all of whose texts the dialect admits, and all that it reports of the others
is a surrogate. **Main statement** (`writeAt_acceptedIff`).

The parts of a container are written one after another, so that it is accepted exactly if all of them
are; `AcceptedIff.bind` says so for two steps.
-/

namespace StreamConsumer

/-- A value of constants, integers of 64 bits, texts of a given kind, lists and dictionaries under such
texts, nested at most as deep as given. -/
inductive Value.Plain (P : Text → Prop) : Nat → Value → Prop where
  /-- No value. -/
  | null (n : Nat) : Plain P n .null
  /-- A truth value. -/
  | bool (n : Nat) (b : Bool) : Plain P n (.bool b)
  /-- An integer of 64 bits. -/
  | int (n : Nat) {i : Int} (h : FitsWord i) : Plain P n (.int i)
  /-- A text of that kind. -/
  | text (n : Nat) {t : Text} (h : P t) : Plain P n (.text t)
  /-- A list of such values. -/
  | list {n : Nat} {items : List Value} (h : ∀ v ∈ items, Plain P n v) : Plain P (n + 1) (.list items)
  /-- A dictionary of such values under texts of that kind. -/
  | dict {n : Nat} {ms : Members} (hk : ∀ m ∈ ms, ∃ t, m.1 = .text t ∧ P t)
    (h : ∀ m ∈ ms, Plain P n m.2) : Plain P (n + 1) (.dict ms)

namespace Value

variable {P : Text → Prop} {n : Nat}

/-- A text is plain exactly if it has the property. -/
theorem plain_text_iff {t : Text} : (text t).Plain P n ↔ P t := by
  constructor
  · intro h
    cases h with
    | text _ h => exact h
  · exact Plain.text n

/-- A list is plain exactly if its items are, one level less deep. -/
theorem plain_list_iff {items : List Value} :
    (list items).Plain P (n + 1) ↔ ∀ v ∈ items, v.Plain P n := by
  constructor
  · intro h
    cases h with
    | list h => exact h
  · exact Plain.list

/-- A dictionary is plain exactly if its keys are texts with the property and its values are plain,
one level less deep. -/
theorem plain_dict_iff {ms : Members} :
    (dict ms).Plain P (n + 1) ↔ ∀ m ∈ ms, (∃ t, m.1 = text t ∧ P t) ∧ m.2.Plain P n := by
  constructor
  · intro h
    cases h with
    | dict hk h => exact fun m hm => ⟨hk m hm, h m hm⟩
  · intro h
    exact Plain.dict (fun m hm => (h m hm).1) fun m hm => (h m hm).2

end Value

namespace Json

/-! ### Steps that a surrogate may end -/

/-- There is a result exactly under a condition, and where there is none a surrogate is reported. -/
structure AcceptedIff {α : Type} (r : Except WriteError α) (p : Prop) : Prop where
  /-- The result is there under the condition. -/
  exists_ok_iff : (∃ a, r = .ok a) ↔ p
  /-- All that is reported is a surrogate. -/
  eq_surrogate : ∀ e, r = .error e → e = .surrogate

section Steps

variable {α β : Type} {r : Except WriteError α} {f : α → Except WriteError β} {p q : Prop}

/-- A result is accepted without a condition. -/
theorem acceptedIff_ok (a : α) : AcceptedIff (.ok a : Except WriteError α) True where
  exists_ok_iff := iff_of_true ⟨a, rfl⟩ trivial
  eq_surrogate e h := by cases h

/-- Conditions that hold together accept the same. -/
theorem AcceptedIff.congr (h : AcceptedIff r p) (hpq : p ↔ q) : AcceptedIff r q where
  exists_ok_iff := h.exists_ok_iff.trans hpq
  eq_surrogate := h.eq_surrogate

/-- One step after another has a result exactly if both have one. -/
theorem AcceptedIff.bind (h : AcceptedIff r p) (hf : ∀ a, AcceptedIff (f a) q) :
    AcceptedIff (r >>= f) (p ∧ q) where
  exists_ok_iff := by
    rw [← h.exists_ok_iff]
    constructor
    · rintro ⟨b, hb⟩
      obtain ⟨a, ha, hb⟩ := Except.bind_eq_ok_iff.mp hb
      exact ⟨⟨a, ha⟩, (hf a).exists_ok_iff.mp ⟨b, hb⟩⟩
    · rintro ⟨⟨a, ha⟩, hq⟩
      obtain ⟨b, hb⟩ := (hf a).exists_ok_iff.mpr hq
      exact ⟨b, Except.bind_eq_ok_iff.mpr ⟨a, ha, hb⟩⟩
  eq_surrogate e he := by
    obtain he | ⟨a, -, he⟩ := Except.bind_eq_error_iff.mp he
    · exact h.eq_surrogate e he
    · exact (hf a).eq_surrogate e he

/-- A step that cannot fail adds no condition. -/
theorem AcceptedIff.bind_ok (h : AcceptedIff r p) (g : α → β) :
    AcceptedIff (r >>= fun a => .ok (g a)) p :=
  (h.bind fun a => acceptedIff_ok (g a)).congr (iff_of_eq (and_true p))

end Steps

/-! ### The writer -/

variable {d : Dialect} {s : JsonStyle} {depth n : Nat}

/-- A text is written exactly if the dialect admits it. -/
theorem writeText_acceptedIff (d : Dialect) (t : Text) :
    AcceptedIff (writeText d t) (d.AdmitsText t) := by
  have hadmits : (d.asciiOnly = true ∨ t.IsScalar) ↔ d.AdmitsText t := by
    cases d <;> simp [Dialect.asciiOnly, Dialect.AdmitsText]
  unfold writeText
  split
  · rename_i h
    exact (acceptedIff_ok _).congr (iff_of_true trivial (hadmits.mp h))
  · rename_i h
    constructor
    · exact iff_of_false (by simp) (mt hadmits.mpr h)
    · intro e he
      exact (Except.error.inj he).symm

/-- Items are written exactly if each of them is. -/
theorem writeItems_acceptedIff {p : Value → Prop} {items : List Value}
    (h : ∀ v ∈ items, AcceptedIff (writeAt d s depth v) (p v)) :
    AcceptedIff (writeItems d s depth items) (∀ v ∈ items, p v) := by
  induction items with
  | nil => exact (acceptedIff_ok _).congr (iff_of_true trivial (List.forall_mem_nil _))
  | cons v vs ih =>
    have hv := h v List.mem_cons_self
    have hvs := ih fun w hw => h w (List.mem_cons_of_mem v hw)
    rw [writeItems]
    exact (hv.bind fun _ => hvs.bind_ok _).congr List.forall_mem_cons.symm

/-- Members are written exactly if the key and the value of each of them are. -/
theorem memberPieces_acceptedIff {p : Value → Prop} {ms : Members} (hk : ms.HasTextKeys)
    (h : ∀ m ∈ ms, AcceptedIff (writeAt d s depth m.2) (p m.2)) :
    AcceptedIff (memberPieces d s (writeMembers d s depth ms))
      (∀ m ∈ ms, (∃ t, m.1 = .text t ∧ d.AdmitsText t) ∧ p m.2) := by
  induction ms with
  | nil => exact (acceptedIff_ok _).congr (iff_of_true trivial (List.forall_mem_nil _))
  | cons m ms ih =>
    obtain ⟨_, v⟩ := m
    obtain ⟨key, rfl⟩ := hk _ List.mem_cons_self
    have hkey : AcceptedIff (writeKey d (.text key))
        (∃ t, Value.text key = .text t ∧ d.AdmitsText t) := by
      rw [writeKey_text]
      exact (writeText_acceptedIff d key).congr (by simp)
    have hv := h _ List.mem_cons_self
    have hms := ih (fun m hm => hk m (List.mem_cons_of_mem _ hm))
      fun m hm => h m (List.mem_cons_of_mem _ hm)
    rw [writeMembers, memberPieces]
    exact (hkey.bind fun _ => hv.bind fun _ => hms.bind_ok _).congr
      (by rw [List.forall_mem_cons, and_assoc])

/-- **What is written.** The writer of a dialect accepts a plain value that does not nest too deep
exactly if the dialect admits all its texts; otherwise it reports a surrogate. -/
theorem writeAt_acceptedIff (d : Dialect) (hs : s.sorted = false) {v : Value}
    (hv : v.Plain (fun _ => True) n) (depth : Nat) (hdepth : depth + n ≤ 254) :
    AcceptedIff (writeAt d s depth v) (v.Plain d.AdmitsText n) := by
  induction hv generalizing depth with
  | null n => exact (acceptedIff_ok _).congr (iff_of_true trivial (.null n))
  | bool n b =>
    refine AcceptedIff.congr ?_ (iff_of_true trivial (.bool n b))
    cases b <;> exact acceptedIff_ok _
  | @int n i hi =>
    refine AcceptedIff.congr ?_ (iff_of_true trivial (.int n hi))
    rw [writeAt, writeInt_of_fitsWord d hi]
    exact acceptedIff_ok _
  | @text n t _ => exact (writeText_acceptedIff d t).congr Value.plain_text_iff.symm
  | @list n items _ ih =>
    have hitems := writeItems_acceptedIff fun v hv => ih v hv (depth + 1) (by omega)
    rw [writeAt_list (admitsDepth_of_lt d (by omega))]
    exact (hitems.bind_ok _).congr Value.plain_list_iff.symm
  | @dict n ms hk _ ih =>
    have htexts : ms.HasTextKeys := fun m hm => (hk m hm).imp fun _ ht => ht.1
    have hms := memberPieces_acceptedIff htexts fun m hm => ih m hm (depth + 1) (by omega)
    rw [writeAt_dict (admitsDepth_of_lt d (by omega)) hs]
    exact (hms.bind_ok _).congr Value.plain_dict_iff.symm

end Json

end StreamConsumer
