import Mathlib.Data.List.Perm.Basic
import StreamConsumer.Proofs.Json.KeyOrder

/-!
# Values with their members in order

`Value.Reordered` says that two values are equal but for the order of the members of their
dictionaries, at every depth. `Value.arranged` puts all members in the order of their keys: the result
is such a value (`reordered_arranged`), and the same one for all of them (`arranged_eq_of_reordered`).
**Main statement** (`writeAt_sorted`): to write a value in the order of its keys is to write the
arranged value as it is, so what holds of the latter holds of the former.
-/

namespace StreamConsumer

/-! ### Equal but for the order -/

/-- Two values are equal up to the order of the members of dictionaries, at every depth. -/
inductive Value.Reordered : Value → Value → Prop where
  /-- A value is equal to itself. -/
  | refl (v : Value) : Reordered v v
  /-- Lists are as long as each other and have such values at every place. -/
  | list {items items' : List Value} (hlength : items.length = items'.length)
    (h : ∀ (i : Nat) (hi : i < items.length) (hi' : i < items'.length),
      Reordered items[i] items'[i]) : Reordered (.list items) (.list items')
  /-- Dictionaries have the same keys in any order and such values under each. -/
  | dict {ms ms' : Members} (hkeys : (ms.map Prod.fst).Perm (ms'.map Prod.fst))
    (h : ∀ m ∈ ms, ∀ m' ∈ ms', m.1 = m'.1 → Reordered m.2 m'.2) : Reordered (.dict ms) (.dict ms')

/-- To be the same up to order goes both ways. -/
theorem Value.Reordered.symm {v w : Value} (h : v.Reordered w) : w.Reordered v := by
  induction h with
  | refl v => exact .refl v
  | list hlength _ ih => exact .list hlength.symm fun i hi hi' => ih i hi' hi
  | dict hkeys _ ih => exact .dict hkeys.symm fun m hm m' hm' hkey => ih m' hm' m hm hkey.symm

/-! ### Members under texts -/

open Json (named)

section Named

variable {α : Type}

/-- Members whose keys are texts are named items. -/
theorem Members.HasTextKeys.exists_named {ms : Members} (h : ms.HasTextKeys) :
    ∃ l, ms = named l := by
  induction ms with
  | nil => exact ⟨[], rfl⟩
  | cons m ms ih =>
    obtain ⟨l, rfl⟩ := ih fun m hm => h m (List.mem_cons_of_mem _ hm)
    obtain ⟨key, hkey⟩ := h m List.mem_cons_self
    exact ⟨(key, m.2) :: l, by rw [Json.named_cons, ← hkey]⟩

/-- What holds of all named members holds of all pairs. -/
theorem forall_mem_named {l : List (Text × α)} {P : Value × α → Prop} :
    (∀ m ∈ named l, P m) ↔ ∀ p ∈ l, P (.text p.1, p.2) := List.forall_mem_map

/-- The keys of named members are the names as texts. -/
theorem keys_named (l : List (Text × α)) :
    (named l).map Prod.fst = (l.map Prod.fst).map Value.text := by
  simp [named]

/-- Different texts are different values. -/
theorem Value.text_injective : Function.Injective Value.text := fun _ _ h => Value.text.inj h

/-- A dictionary under texts is portable if these are different and have no surrogates, and if its
values are. -/
theorem portable_named_iff {n : Nat} {l : List (Text × Value)} :
    (Value.dict (named l)).Portable (n + 1) ↔
      (∀ p ∈ l, p.1.IsScalar) ∧ (l.map Prod.fst).Nodup ∧ ∀ p ∈ l, p.2.Portable n := by
  constructor
  · intro h
    cases h with
    | dict hk hnd h =>
      rw [keys_named, List.nodup_map_iff Value.text_injective] at hnd
      refine ⟨fun p hp => ?_, hnd, forall_mem_named.mp h⟩
      obtain ⟨t, ht, hscalar⟩ := forall_mem_named.mp hk p hp
      exact Value.text_injective ht ▸ hscalar
  · rintro ⟨hk, hnd, h⟩
    refine .dict ?_ ?_ ?_
    · exact forall_mem_named.mpr fun p hp => ⟨p.1, rfl, hk p hp⟩
    · rwa [keys_named, List.nodup_map_iff Value.text_injective]
    · exact forall_mem_named.mpr h

/-- Whether it is does not depend on the order. -/
theorem portable_named_of_perm {n : Nat} {l l' : List (Text × Value)} (hperm : l.Perm l')
    (h : (Value.dict (named l)).Portable n) : (Value.dict (named l')).Portable n := by
  obtain ⟨n, rfl⟩ : ∃ k, n = k + 1 := by
    cases h
    exact ⟨_, rfl⟩
  obtain ⟨hk, hnd, hv⟩ := portable_named_iff.mp h
  refine portable_named_iff.mpr ⟨?_, (hperm.map _).nodup_iff.mp hnd, ?_⟩
  · exact fun p hp => hk p (hperm.mem_iff.mpr hp)
  · exact fun p hp => hv p (hperm.mem_iff.mpr hp)

/-- Items are given by their keys and by what stands under each, but for their order. -/
theorem perm_of_keys {l l' : List (Text × α)} (hnd : (l.map Prod.fst).Nodup)
    (hkeys : (l.map Prod.fst).Perm (l'.map Prod.fst))
    (h : ∀ p ∈ l, ∀ q ∈ l', p.1 = q.1 → p.2 = q.2) : l.Perm l' := by
  have hnd' := hkeys.nodup_iff.mp hnd
  rw [List.perm_ext_iff_of_nodup (.of_map _ hnd) (.of_map _ hnd')]
  intro p
  constructor
  · intro hp
    obtain ⟨q, hq, hqp⟩ := List.mem_map.mp (hkeys.mem_iff.mp (List.mem_map_of_mem hp))
    rwa [show p = q from Prod.ext hqp.symm (h p hp q hq hqp.symm)]
  · intro hp
    obtain ⟨q, hq, hqp⟩ := List.mem_map.mp (hkeys.mem_iff.mpr (List.mem_map_of_mem hp))
    rwa [show p = q from Prod.ext hqp.symm (h q hq p hp hqp).symm]

end Named

/-! ### Arranged values -/

/-- Members under texts in the order of these. -/
def Members.byKey (ms : Members) : Members :=
  match Json.textKeys? ms with
  | some keyed => (KeyOrder.byText keyed).map Prod.snd
  | none => ms

namespace Value

mutual

/-- A value with the members of every dictionary in the order of their keys. -/
def arranged : Value → Value
  | .list items => .list (arrangedItems items)
  | .dict ms => .dict (Members.byKey (arrangedMembers ms))
  | v => v

/-- Arranged values in order. -/
def arrangedItems : List Value → List Value
  | [] => []
  | v :: vs => v.arranged :: arrangedItems vs

/-- Members with arranged values. -/
def arrangedMembers : Members → Members
  | [] => []
  | (k, v) :: ms => (k, v.arranged) :: arrangedMembers ms

end

/-- A list is arranged item by item. -/
theorem arranged_list (items : List Value) :
    (list items).arranged = list (items.map arranged) := by
  rw [arranged]
  congr 1
  induction items with
  | nil => rfl
  | cons v vs ih => rw [arrangedItems, ih, List.map_cons]

/-- A dictionary is arranged by putting its arranged members in the order of their names. -/
theorem arranged_named (l : List (Text × Value)) : (dict (named l)).arranged =
    dict (named (KeyOrder.byText (l.map fun p => (p.1, p.2.arranged)))) := by
  have hvalues : arrangedMembers (named l) = named (l.map fun p => (p.1, p.2.arranged)) := by
    induction l with
    | nil => rfl
    | cons p l ih => rw [Json.named_cons, arrangedMembers, ih, List.map_cons, Json.named_cons]
  rw [arranged, hvalues, Members.byKey, Json.textKeys?_named]
  simp only [Json.map_snd_byText]

variable {n : Nat} {v w : Value}

/-- A portable value stays portable. -/
theorem portable_arranged (hv : v.Portable n) : v.arranged.Portable n := by
  induction hv with
  | null n => exact .null n
  | bool n b => exact .bool n b
  | int n hi => exact .int n hi
  | text n ht => exact .text n ht
  | list _ ih =>
    rw [arranged_list]
    exact .list (List.forall_mem_map.mpr ih)
  | @dict n ms hk hnd h ih =>
    obtain ⟨l, rfl⟩ := Members.HasTextKeys.exists_named fun m hm => (hk m hm).imp fun _ h => h.1
    obtain ⟨hscalar, hnodup, -⟩ := portable_named_iff.mp (.dict hk hnd h)
    rw [arranged_named]
    refine portable_named_of_perm (KeyOrder.byText_perm _).symm (portable_named_iff.mpr ?_)
    have hvalues := forall_mem_named.mp ih
    refine ⟨List.forall_mem_map.mpr hscalar, ?_, List.forall_mem_map.mpr hvalues⟩
    rwa [List.map_map]

/-- Nothing but the order is changed. -/
theorem reordered_arranged (hv : v.Portable n) : v.Reordered v.arranged := by
  induction hv with
  | null | bool | int | text => exact .refl _
  | list _ ih =>
    rw [arranged_list]
    refine .list (List.length_map _).symm fun i hi hi' => ?_
    rw [List.getElem_map]
    exact ih _ (List.getElem_mem hi)
  | @dict n ms hk hnd h ih =>
    obtain ⟨l, rfl⟩ := Members.HasTextKeys.exists_named fun m hm => (hk m hm).imp fun _ h => h.1
    obtain ⟨-, hnodup, -⟩ := portable_named_iff.mp (.dict hk hnd h)
    have hvalues := forall_mem_named.mp ih
    have hperm := KeyOrder.byText_perm (l.map fun p => (p.1, p.2.arranged))
    rw [arranged_named]
    refine .dict ?_ ?_
    · rw [keys_named, keys_named]
      refine List.Perm.map _ (.symm ?_)
      simpa [Function.comp_def] using hperm.map Prod.fst
    · intro m hm m' hm' hkey
      obtain ⟨p, hp, rfl⟩ := List.mem_map.mp hm
      obtain ⟨q', hq', rfl⟩ := List.mem_map.mp hm'
      obtain ⟨q, hq, rfl⟩ := List.mem_map.mp (hperm.mem_iff.mp hq')
      obtain rfl := List.inj_on_of_nodup_map hnodup hp hq (Value.text_injective hkey)
      exact hvalues p hp

/-- **One arrangement.** Values that are equal but for the order are portable alike and are arranged to
the same value. -/
theorem arranged_eq_of_reordered (hv : v.Portable n) (h : v.Reordered w) :
    v.arranged = w.arranged ∧ w.Portable n := by
  induction h generalizing n with
  | refl => exact ⟨rfl, hv⟩
  | @list items items' hlength _ ih =>
    cases hv with
    | list hv =>
      have hitem (i : Nat) (hi : i < items.length) (hi' : i < items'.length) :=
        ih i hi hi' (hv _ (List.getElem_mem hi))
      constructor
      · rw [arranged_list, arranged_list]
        congr 1
        refine List.ext_getElem (by simpa using hlength) fun i hi hi' => ?_
        rw [List.getElem_map, List.getElem_map]
        exact (hitem i (by simpa using hi) (by simpa using hi')).1
      · refine .list fun v hv => ?_
        obtain ⟨i, hi, rfl⟩ := List.mem_iff_getElem.mp hv
        exact (hitem i (hlength ▸ hi) hi).2
  | @dict ms ms' hkeys _ ih =>
    cases hv with
    | @dict n _ hk hnd hv =>
      have htexts : ms.HasTextKeys := fun m hm => (hk m hm).imp fun _ h => h.1
      have htexts' : ms'.HasTextKeys := by
        intro m' hm'
        obtain ⟨m, hm, hkey⟩ := List.mem_map.mp (hkeys.mem_iff.mpr (List.mem_map_of_mem hm'))
        obtain ⟨t, ht⟩ := htexts m hm
        exact ⟨t, hkey ▸ ht⟩
      obtain ⟨l, rfl⟩ := htexts.exists_named
      obtain ⟨l', rfl⟩ := htexts'.exists_named
      rw [keys_named, keys_named, List.map_perm_map_iff Value.text_injective] at hkeys
      obtain ⟨hscalar, hnodup, hvalues⟩ := portable_named_iff.mp (.dict hk hnd hv)
      have hother (q : Text × Value) (hq : q ∈ l') : ∃ p ∈ l, p.1 = q.1 :=
        List.mem_map.mp (hkeys.mem_iff.mpr (List.mem_map_of_mem hq))
      have hsame (p : Text × Value) (hp : p ∈ l) (q : Text × Value) (hq : q ∈ l')
          (hpq : p.1 = q.1) : p.2.arranged = q.2.arranged ∧ q.2.Portable n :=
        ih _ (List.mem_map_of_mem hp) _ (List.mem_map_of_mem hq) (congrArg text hpq) (hvalues p hp)
      constructor
      · rw [arranged_named, arranged_named]
        congr 2
        refine KeyOrder.byText_eq_of_perm ?_ (perm_of_keys ?_ ?_ ?_)
        · rwa [List.map_map]
        · rwa [List.map_map]
        · rwa [List.map_map, List.map_map]
        · refine List.forall_mem_map.mpr fun p hp => List.forall_mem_map.mpr fun q hq hpq => ?_
          exact (hsame p hp q hq hpq).1
      · refine portable_named_iff.mpr ⟨fun q hq => ?_, hkeys.nodup_iff.mp hnodup, fun q hq => ?_⟩
        · obtain ⟨p, hp, hpq⟩ := hother q hq
          exact hpq ▸ hscalar p hp
        · obtain ⟨p, hp, hpq⟩ := hother q hq
          exact (hsame p hp q hq hpq).2

end Value

namespace Json

variable {d : Dialect} {depth n : Nat}

/-! ### Writing in order -/

/-- Whether members are put in order does not show in how they are set out. -/
theorem bracketed_sorted (indented sorted : Bool) (depth : Nat) (opening closing : CodePoint)
    (pieces : List Text) : bracketed ⟨indented, sorted⟩ depth opening closing pieces =
      bracketed ⟨indented, false⟩ depth opening closing pieces := by
  cases pieces <;> rfl

/-- The pieces of members do not depend on whether these are to be put in order. -/
theorem memberPieces_sorted (d : Dialect) (indented sorted : Bool)
    (ms : List (Value × Except WriteError Text)) :
    memberPieces d ⟨indented, sorted⟩ ms = memberPieces d ⟨indented, false⟩ ms := by
  induction ms with
  | nil => rfl
  | cons m ms ih =>
    obtain ⟨key, value⟩ := m
    rw [memberPieces, memberPieces, ih]
    rfl

/-- Items are written as others are, if each is written as the other one. -/
theorem writeItems_congr {s s' : JsonStyle} {items : List Value} {f : Value → Value}
    (h : ∀ v ∈ items, writeAt d s depth v = writeAt d s' depth (f v)) :
    writeItems d s depth items = writeItems d s' depth (items.map f) := by
  induction items with
  | nil => rfl
  | cons v vs ih =>
    obtain ⟨hv, hvs⟩ := List.forall_mem_cons.mp h
    rw [List.map_cons, writeItems, writeItems, hv, ih hvs]

/-- Named members are written name by name. -/
theorem writeMembers_named (d : Dialect) (s : JsonStyle) (depth : Nat) (l : List (Text × Value)) :
    writeMembers d s depth (named l) = named (l.map fun p => (p.1, writeAt d s depth p.2)) := by
  induction l with
  | nil => rfl
  | cons p l ih => rw [named_cons, writeMembers, ih, List.map_cons, named_cons]

/-- Written members are put in order as the members are that they were written from. -/
theorem arrange_writeMembers (d : Dialect) {indented : Bool} {l : List (Text × Value)}
    (hscalar : ∀ p ∈ l, p.1.IsScalar)
    (h : ∀ p ∈ l, writeAt d ⟨indented, true⟩ depth p.2 =
      writeAt d ⟨indented, false⟩ depth p.2.arranged) :
    arrange d ⟨indented, true⟩ (writeMembers d ⟨indented, true⟩ depth (named l)) =
      .ok (writeMembers d ⟨indented, false⟩ depth
        (named (KeyOrder.byText (l.map fun p => (p.1, p.2.arranged))))) := by
  have hkeys : ∀ p ∈ l.map fun p => (p.1, writeAt d ⟨indented, true⟩ depth p.2), p.1.IsScalar :=
    List.forall_mem_map.mpr hscalar
  rw [writeMembers_named, arrange_named d (s := ⟨indented, true⟩) rfl hkeys, KeyOrder.byText_map,
    writeMembers_named, KeyOrder.byText_map, List.map_map]
  congr 2
  refine List.map_congr_left fun p hp => ?_
  exact congrArg _ (h p ((KeyOrder.byText_perm l).mem_iff.mp hp))

/-- **Writing in order.** A portable value written in the order of its keys has the text that the
arranged value has as it is. -/
theorem writeAt_sorted (d : Dialect) (indented : Bool) {v : Value} (hv : v.Portable n)
    (depth : Nat) : writeAt d ⟨indented, true⟩ depth v =
      writeAt d ⟨indented, false⟩ depth v.arranged := by
  induction hv generalizing depth with
  | null => rfl
  | bool _ b => cases b <;> rfl
  | int => rfl
  | text => rfl
  | @list n items _ ih =>
    rw [Value.arranged_list, writeAt, writeAt, writeItems_congr fun v hv => ih v hv (depth + 1)]
    simp only [bracketed_sorted indented true]
  | @dict n ms hk hnd h ih =>
    obtain ⟨l, rfl⟩ := Members.HasTextKeys.exists_named fun m hm => (hk m hm).imp fun _ h => h.1
    obtain ⟨hscalar, -, -⟩ := portable_named_iff.mp (.dict hk hnd h)
    have hvalues (p : Text × Value) (hp : p ∈ l) := forall_mem_named.mp ih p hp (depth + 1)
    have hunsorted (ms : List (Value × Except WriteError Text)) :
        arrange d ⟨indented, false⟩ ms = .ok ms := rfl
    rw [Value.arranged_named, writeAt, writeAt, arrange_writeMembers d hscalar hvalues, hunsorted]
    simp only [memberPieces_sorted d indented true, bracketed_sorted indented true]

end Json

end StreamConsumer
