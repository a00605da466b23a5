import Mathlib.Data.List.Basic
import Mathlib.Data.List.Forall2
import Mathlib.Data.List.Pairwise
import Mathlib.Algebra.BigOperators.Group.List.Basic
import Mathlib.Tactic.Common
import Mathlib.Tactic.Abel
import Mathlib.Tactic.Ring

/-!
# Tables with unique indexes

A row of type `ρ` knows the values it puts into unique indexes (`keys`, each tagged with its column), and the `SET` part
of an update is a value of its own type, whose application never touches an indexed column (`Settable`). A `Table` is
then a list of rows with no two sharing a key, by construction: `insert` is partial, `update` is total.

* `select`, `update`, `insert`, `insertAll` are the statements over one table, with their `WHERE` as a Boolean
  predicate.
* `total f t` sums `f` over the rows; `total_insert` and `total_update` say how a statement moves it, and
  `select_eq_of_key` that a `WHERE` on a unique column finds the row that has it and no other.
* `Moves R t u` says that `u` has the rows of `t`, each moved along `R`.
-/

namespace Smink.Store

/-- Rows with unique indexes. -/
class Keyed (ρ : Type) where
  /-- The indexed values of a row, each with the name of its column. -/
  keys : ρ → List (String × String)

/-- The `SET` part of an update to rows `ρ`. -/
class Settable (ρ : Type) (π : outParam Type) [Keyed ρ] where
  apply : π → ρ → ρ
  keys_apply : ∀ (set : π) (r : ρ), Keyed.keys (apply set r) = Keyed.keys r

/-- No unique index keeps the two rows apart. -/
def Apart {ρ : Type} [Keyed ρ] (a b : ρ) : Prop := ∀ k ∈ Keyed.keys a, k ∉ Keyed.keys b

instance {ρ : Type} [Keyed ρ] (a b : ρ) : Decidable (Apart a b) :=
  inferInstanceAs (Decidable (∀ k ∈ Keyed.keys a, k ∉ Keyed.keys b))

theorem apart_congr {ρ : Type} [Keyed ρ] {f : ρ → ρ} (hf : ∀ r, Keyed.keys (f r) = Keyed.keys r) {a b : ρ}
    (h : Apart a b) : Apart (f a) (f b) := by
  unfold Apart
  rw [hf, hf]
  exact h

/-! ## Lists row by row -/

theorem forall₂_trans {ρ : Type} {R : ρ → ρ → Prop} (hR : ∀ a b c, R a b → R b c → R a c) :
    ∀ {l m n : List ρ}, List.Forall₂ R l m → List.Forall₂ R m n → List.Forall₂ R l n
  | _, _, _, .nil, .nil => .nil
  | _, _, _, .cons h₁ t₁, .cons h₂ t₂ => .cons (hR _ _ _ h₁ h₂) (forall₂_trans hR t₁ t₂)

theorem exists_of_forall₂ {α β : Type} {R : α → β → Prop} : ∀ {l : List α} {m : List β}, List.Forall₂ R l m →
    ∀ a ∈ l, ∃ b ∈ m, R a b
  | _, _, .nil, _, ha => nomatch ha
  | _ :: _, _ :: _, .cons hab hlm, c, hc => by
    rcases List.mem_cons.1 hc with rfl | hc
    · exact ⟨_, List.mem_cons_self, hab⟩
    · obtain ⟨d, hd, hcd⟩ := exists_of_forall₂ hlm c hc
      exact ⟨d, List.mem_cons_of_mem _ hd, hcd⟩

/-! ## Tables -/

structure Table (ρ : Type) [Keyed ρ] where
  rows : List ρ
  unique : rows.Pairwise Apart

namespace Table

variable {ρ π : Type} [Keyed ρ]

theorem ext {t u : Table ρ} (h : t.rows = u.rows) : t = u := by
  cases t; cases u; cases h; rfl

instance [DecidableEq ρ] : DecidableEq (Table ρ) := fun t u =>
  decidable_of_iff (t.rows = u.rows) ⟨ext, fun h => by rw [h]⟩

def empty : Table ρ := ⟨[], .nil⟩

/-- `SELECT … WHERE p`. -/
def select (t : Table ρ) (p : ρ → Bool) : List ρ := t.rows.filter p

/-- `INSERT` of one row; `none` when a unique index already holds one of its values. -/
def insert (t : Table ρ) (r : ρ) : Option (Table ρ) :=
  if h : ∀ a ∈ t.rows, Apart a r then
    some ⟨t.rows ++ [r], List.pairwise_append.2 ⟨t.unique, List.pairwise_singleton _ _, by simpa using h⟩⟩
  else none

/-- `INSERT` of several rows, all or none. -/
def insertAll (t : Table ρ) (rs : List ρ) : Option (Table ρ) := rs.foldlM insert t

section Update

variable [Settable ρ π]

/-- A row after the update: changed when it satisfies the `WHERE`. -/
def updateRow (p : ρ → Bool) (set : π) (r : ρ) : ρ := if p r then Settable.apply set r else r

theorem keys_updateRow (p : ρ → Bool) (set : π) (r : ρ) : Keyed.keys (updateRow p set r) = Keyed.keys r := by
  unfold updateRow
  split
  · exact Settable.keys_apply set r
  · rfl

/-- `UPDATE … SET set WHERE p`. -/
def update (t : Table ρ) (p : ρ → Bool) (set : π) : Table ρ :=
  ⟨t.rows.map (updateRow p set), List.pairwise_map.2 (t.unique.imp (apart_congr (keys_updateRow p set)))⟩

/-- The rows that `UPDATE … RETURNING` answers with. -/
def updated (t : Table ρ) (p : ρ → Bool) (set : π) : List ρ := (t.rows.filter p).map (Settable.apply set)

end Update

/-- The table with every row rewritten, none in a unique column. -/
def relabel (t : Table ρ) (f : ρ → ρ) (hf : ∀ r, Keyed.keys (f r) = Keyed.keys r) : Table ρ :=
  ⟨t.rows.map f, List.pairwise_map.2 (t.unique.imp (apart_congr hf))⟩

/-! ## Rows and keys -/

theorem mem_select {t : Table ρ} {p : ρ → Bool} {r : ρ} : r ∈ t.select p ↔ r ∈ t.rows ∧ p r = true := by
  simp [select]

/-- The first row a `SELECT … LIMIT 1` answers with. -/
theorem mem_of_select_head {t : Table ρ} {p : ρ → Bool} {r : ρ} (h : (t.select p).head? = some r) :
    r ∈ t.rows ∧ p r = true :=
  mem_select.1 (List.mem_of_head? h)

/-- A `SELECT` without an answer has met no row. -/
theorem not_of_select_head {t : Table ρ} {p : ρ → Bool} {r : ρ} (h : ¬ (t.select p).head?.isSome = true)
    (hr : r ∈ t.rows) : p r = false := by
  have hnil : t.select p = [] := by simpa using h
  exact eq_false_of_ne_true (List.filter_eq_nil_iff.1 hnil r hr)

theorem pairwise_eq_of_key : ∀ {l : List ρ}, l.Pairwise Apart → ∀ {a b : ρ}, a ∈ l → b ∈ l → ∀ {k : String × String},
    k ∈ Keyed.keys a → k ∈ Keyed.keys b → a = b
  | [], _, _, _, ha, _, _, _, _ => by cases ha
  | c :: l, h, a, b, ha, hb, k, hka, hkb => by
    obtain ⟨hc, hl⟩ := List.pairwise_cons.1 h
    rcases List.mem_cons.1 ha with rfl | ha'
    · rcases List.mem_cons.1 hb with rfl | hb'
      · rfl
      · exact absurd hkb (hc b hb' k hka)
    · rcases List.mem_cons.1 hb with rfl | hb'
      · exact absurd hka (hc a ha' k hkb)
      · exact pairwise_eq_of_key hl ha' hb' hka hkb

/-- Rows that share a key are the same row. -/
theorem eq_of_key (t : Table ρ) {a b : ρ} (ha : a ∈ t.rows) (hb : b ∈ t.rows) {k : String × String}
    (hka : k ∈ Keyed.keys a) (hkb : k ∈ Keyed.keys b) : a = b :=
  pairwise_eq_of_key t.unique ha hb hka hkb

theorem pairwise_filter_key : ∀ {l : List ρ}, l.Pairwise Apart → ∀ {p : ρ → Bool} {r : ρ} {k : String × String},
    r ∈ l → p r = true → (∀ a ∈ l, p a = true → k ∈ Keyed.keys a) → l.filter p = [r]
  | [], _, _, _, _, hr, _, _ => by cases hr
  | c :: l, h, p, r, k, hr, hp, hk => by
    obtain ⟨hc, hl⟩ := List.pairwise_cons.1 h
    have hkr : k ∈ Keyed.keys r := hk r hr hp
    rcases List.mem_cons.1 hr with rfl | hr'
    · have hnil : l.filter p = [] := by
        rw [List.filter_eq_nil_iff]
        intro a ha hpa
        exact hc a ha k hkr (hk a (by simp [ha]) hpa)
      rw [List.filter_cons_of_pos hp, hnil]
    · have hpc : ¬ p c = true := fun hpc => hc r hr' k (hk c (by simp) hpc) hkr
      rw [List.filter_cons_of_neg hpc]
      exact pairwise_filter_key hl hr' hp (fun a ha => hk a (by simp [ha]))

/-- A `WHERE` that pins a unique column finds exactly the row that has it. -/
theorem select_eq_of_key (t : Table ρ) {p : ρ → Bool} {r : ρ} {k : String × String} (hr : r ∈ t.rows)
    (hp : p r = true) (hk : ∀ a ∈ t.rows, p a = true → k ∈ Keyed.keys a) : t.select p = [r] :=
  pairwise_filter_key t.unique hr hp hk

/-- A `WHERE` that pins a unique column finds one row or none. -/
theorem select_of_key (t : Table ρ) {p : ρ → Bool} {k : String × String}
    (hk : ∀ a ∈ t.rows, p a = true → k ∈ Keyed.keys a) :
    t.select p = [] ∨ ∃ r ∈ t.rows, p r = true ∧ t.select p = [r] := by
  cases h : t.select p with
  | nil => exact .inl rfl
  | cons r rs =>
    obtain ⟨hr, hp⟩ := mem_select.1 (by rw [h]; simp : r ∈ t.select p)
    exact .inr ⟨r, hr, hp, by rw [← h, t.select_eq_of_key hr hp hk]⟩

theorem rows_insert {t u : Table ρ} {r : ρ} (h : t.insert r = some u) : u.rows = t.rows ++ [r] := by
  unfold insert at h
  split at h <;> cases h
  rfl

theorem mem_of_insert {t u : Table ρ} {r : ρ} (h : t.insert r = some u) : r ∈ u.rows := by
  rw [rows_insert h]
  exact List.mem_append_right _ (List.mem_singleton_self r)

/-- An inserted row shares no unique value with the rows before it. -/
theorem apart_of_insert {t u : Table ρ} {r : ρ} (h : t.insert r = some u) : ∀ a ∈ t.rows, Apart a r := by
  unfold insert at h
  split at h
  · assumption
  · cases h

/-- A row that is refused shares a unique value with a row of the table. -/
theorem exists_of_insert_none {t : Table ρ} {r : ρ} (h : t.insert r = none) :
    ∃ a ∈ t.rows, ∃ k ∈ Keyed.keys a, k ∈ Keyed.keys r := by
  unfold insert at h
  split at h
  · cases h
  · rename_i hne
    simpa [Apart] using hne

theorem rows_insertAll {rs : List ρ} : ∀ {t u : Table ρ}, t.insertAll rs = some u → u.rows = t.rows ++ rs := by
  induction rs with
  | nil => intro t u h; cases h; simp
  | cons r rs ih =>
    intro t u h
    rw [insertAll, List.foldlM_cons] at h
    obtain ⟨v, h1, h2⟩ := Option.bind_eq_some_iff.1 h
    rw [ih h2, rows_insert h1, List.append_assoc, List.singleton_append]

section Update

variable [Settable ρ π] {t : Table ρ} {p : ρ → Bool} {set : π}

theorem rows_update : (t.update p set).rows = t.rows.map (updateRow p set) := rfl

theorem mem_update {r : ρ} : r ∈ (t.update p set).rows ↔ ∃ a ∈ t.rows, updateRow p set a = r := by
  simp [update]

theorem updateRow_pos {r : ρ} (h : p r = true) : updateRow p set r = Settable.apply set r := if_pos h

theorem updateRow_neg {r : ρ} (h : p r = false) : updateRow p set r = r := if_neg (by simp [h])

/-- An update whose `WHERE` finds nothing changes nothing. -/
theorem update_eq_self (h : t.select p = []) : t.update p set = t := by
  apply ext
  rw [rows_update]
  have hid : ∀ r ∈ t.rows, updateRow p set r = r := fun r hr =>
    updateRow_neg (by simpa using List.filter_eq_nil_iff.1 h r hr)
  exact (List.map_congr_left hid).trans (List.map_id _)

theorem updated_eq_map : t.updated p set = (t.select p).map (Settable.apply set) := rfl

/-! ## Totals -/

variable {M : Type} [AddCommGroup M]

/-- The sum of `f` over the rows. -/
def total (f : ρ → M) (t : Table ρ) : M := (t.rows.map f).sum

theorem total_insert {u : Table ρ} {r : ρ} (f : ρ → M) (h : t.insert r = some u) : u.total f = t.total f + f r := by
  unfold total
  rw [rows_insert h, List.map_append, List.sum_append, List.map_singleton, List.sum_singleton]

theorem total_insertAll {u : Table ρ} {rs : List ρ} (f : ρ → M) (h : t.insertAll rs = some u) :
    u.total f = t.total f + (rs.map f).sum := by
  unfold total
  rw [rows_insertAll h, List.map_append, List.sum_append]

/-- The total of a measure that is zero off a `WHERE`. -/
theorem total_eq_sum_select {f g : ρ → M} (hp : ∀ r, p r = true → f r = g r) (hn : ∀ r, p r = false → f r = 0) :
    t.total f = ((t.select p).map g).sum := by
  unfold total select
  induction t.rows with
  | nil => rfl
  | cons r rs ih =>
    rw [List.map_cons, List.sum_cons, ih]
    cases h : p r with
    | true => rw [List.filter_cons_of_pos h, List.map_cons, List.sum_cons, hp r h]
    | false => rw [List.filter_cons_of_neg (by simp [h]), hn r h, zero_add]

theorem sum_eq_of_key {f : ρ → M} {k : String × String} (hz : ∀ a, k ∉ Keyed.keys a → f a = 0) :
    ∀ {l : List ρ}, l.Pairwise Apart → ∀ {r : ρ}, r ∈ l → k ∈ Keyed.keys r → (l.map f).sum = f r
  | [], _, _, hr, _ => by cases hr
  | c :: l, h, r, hr, hk => by
    obtain ⟨hc, hl⟩ := List.pairwise_cons.1 h
    rw [List.map_cons, List.sum_cons]
    rcases List.mem_cons.1 hr with rfl | hr'
    · have hzero : ∀ a ∈ l, f a = 0 := fun a ha => hz a (hc a ha k hk)
      rw [List.map_congr_left hzero]
      simp
    · have hck : k ∉ Keyed.keys c := fun hck => hc r hr' k hck hk
      rw [hz c hck, zero_add]
      exact sum_eq_of_key hz hl hr' hk

/-- The total of a measure that only sees the row with a key. -/
theorem total_eq_of_key {f : ρ → M} {k : String × String} {r : ρ} (hz : ∀ a, k ∉ Keyed.keys a → f a = 0)
    (hr : r ∈ t.rows) (hk : k ∈ Keyed.keys r) : t.total f = f r :=
  sum_eq_of_key hz t.unique hr hk

/-- An update moves a total by what it moves the selected rows. -/
theorem total_update (f : ρ → M) :
    (t.update p set).total f = t.total f + ((t.select p).map fun r => f (Settable.apply set r) - f r).sum := by
  unfold total select
  rw [rows_update, List.map_map]
  induction t.rows with
  | nil => simp
  | cons r rs ih =>
    rw [List.map_cons, List.map_cons, List.sum_cons, List.sum_cons, ih]
    cases hp : p r with
    | true =>
      rw [List.filter_cons_of_pos hp, List.map_cons, List.sum_cons, Function.comp_apply, updateRow_pos hp]
      abel
    | false =>
      rw [List.filter_cons_of_neg (by simp [hp]), Function.comp_apply, updateRow_neg hp]
      abel

/-- An update of one row. -/
theorem total_update_one (f : ρ → M) {r : ρ} (h : t.select p = [r]) :
    (t.update p set).total f = t.total f + (f (Settable.apply set r) - f r) := by
  rw [total_update, h, List.map_singleton, List.sum_singleton]

/-- An update that leaves `f` alone leaves its total alone. -/
theorem total_update_of_eq (f : ρ → M) (h : ∀ r ∈ t.rows, p r = true → f (Settable.apply set r) = f r) :
    (t.update p set).total f = t.total f := by
  rw [total_update]
  have hz : (t.select p).map (fun r => f (Settable.apply set r) - f r) = (t.select p).map fun _ => 0 :=
    List.map_congr_left fun r hr => by
      obtain ⟨hm, hp⟩ := mem_select.1 hr
      rw [h r hm hp, sub_self]
  rw [hz]
  simp

end Update

/-! ## Statements on a rewritten table -/

section Relabel

variable {t u : Table ρ} {p : ρ → Bool} {r : ρ} {f : ρ → ρ} {hf : ∀ r, Keyed.keys (f r) = Keyed.keys r}

theorem select_relabel (hp : ∀ r, p (f r) = p r) : (t.relabel f hf).select p = (t.select p).map f := by
  have hpf : p ∘ f = p := funext hp
  simp only [select, relabel, List.filter_map, hpf]

theorem apart_relabel : (∀ a ∈ (t.relabel f hf).rows, Apart a r) ↔ ∀ a ∈ t.rows, Apart a r := by
  simp only [relabel, List.forall_mem_map, Apart, hf]

theorem insert_relabel (h : t.insert r = some u) (hr : f r = r) :
    (t.relabel f hf).insert r = some (u.relabel f hf) := by
  unfold insert at h ⊢
  split at h
  · rename_i ha
    cases h
    rw [dif_pos (apart_relabel.2 ha)]
    simp only [relabel, List.map_append, List.map_singleton, hr]
  · cases h

theorem insert_relabel_none (h : t.insert r = none) : (t.relabel f hf).insert r = none := by
  unfold insert at h ⊢
  split at h
  · cases h
  · rename_i ha
    exact dif_neg fun ha' => ha (apart_relabel.1 ha')

theorem update_relabel [Settable ρ π] {set set' : π} (hp : ∀ r, p (f r) = p r)
    (hset : ∀ r, p r = true → Settable.apply set' (f r) = f (Settable.apply set r)) :
    (t.relabel f hf).update p set' = (t.update p set).relabel f hf := by
  apply ext
  simp only [relabel, update, List.map_map]
  refine List.map_congr_left fun r _ => ?_
  simp only [Function.comp_apply, updateRow, hp]
  split
  · rename_i h
    exact hset r h
  · rfl

end Relabel

/-! ## Tables row by row -/

/-- The later table has the rows of the earlier one, each moved along `R`. -/
def Moves (R : ρ → ρ → Prop) (t u : Table ρ) : Prop := List.Forall₂ R t.rows u.rows

section Moves

variable {R : ρ → ρ → Prop} {t u v : Table ρ}

theorem Moves.refl (hR : ∀ a, R a a) (t : Table ρ) : Moves R t t := List.forall₂_same.2 fun a _ => hR a

theorem Moves.trans (hR : ∀ a b c, R a b → R b c → R a c) (h : Moves R t u) (h' : Moves R u v) : Moves R t v :=
  forall₂_trans hR h h'

/-- Where a row has moved to. -/
theorem Moves.exists_later (h : Moves R t u) {a : ρ} (ha : a ∈ t.rows) : ∃ b ∈ u.rows, R a b :=
  exists_of_forall₂ h a ha

/-- Where a row has come from. -/
theorem Moves.exists_earlier (h : Moves R t u) {b : ρ} (hb : b ∈ u.rows) : ∃ a ∈ t.rows, R a b :=
  exists_of_forall₂ h.flip b hb

/-- An update moves a table when it moves each row that it finds. -/
theorem moves_update {π : Type} [Settable ρ π] {p : ρ → Bool} {set : π} (hR : ∀ a, R a a)
    (h : ∀ a ∈ t.rows, p a = true → R a (Settable.apply set a)) : Moves R t (t.update p set) := by
  unfold Moves
  rw [rows_update, List.forall₂_map_right_iff, List.forall₂_same]
  intro a ha
  unfold updateRow
  split
  · exact h a ha ‹_›
  · exact hR a

end Moves

end Table

end Smink.Store
