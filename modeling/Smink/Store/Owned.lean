import Smink.Store.Prog
import Smink.Store.Table

/-!
# Programs that keep to one owner's rows

A `Region` is a part of the store: the statements that stay inside it, the stores that look alike from inside, and what
statements inside can change. A program that stays inside (`Region.Within`) does the same from alike stores
(`Region.Within.run`), so two programs that stay inside regions apart from each other commute (`Region.commute`).

Tables whose rows have an owner have such regions. From one owner's side two tables look alike when they have the same
rows of the owner, and the same of the unique values that the owner may take are taken (`Table.Alike`).
-/

namespace Smink.Store

/-! ## Regions -/

section Region

variable {S : Type} {R : S → Type} {ε α β σ : Type}

structure Region (exec : (q : S) → σ → Except ε (R q × σ)) where
  inside : S → σ → Prop
  alike : σ → σ → Prop
  touches : σ → σ → Prop
  touches_refl : ∀ s, touches s s
  touches_trans : ∀ {s t u}, touches s t → touches t u → touches s u
  /-- A statement inside the region does the same in stores that look alike. -/
  step : ∀ {q s s'}, inside q s → inside q s' → alike s s' →
    (∃ e, exec q s = .error e ∧ exec q s' = .error e) ∨
      ∃ r t t', exec q s = .ok (r, t) ∧ exec q s' = .ok (r, t') ∧ alike t t' ∧ touches s t

namespace Region

variable {exec : (q : S) → σ → Except ε (R q × σ)} {F G : Region exec}

/-- Every statement of the run is inside the region. -/
def Within (F : Region exec) : Prog R ε α → σ → Prop
  | .ret _, _ => True
  | .throw _, _ => True
  | .stmt q k, s => F.inside q s ∧ ∀ r t, exec q s = .ok (r, t) → F.Within (k r) t

theorem within_of_done {p : Prog R ε α} (h : p.done = true) (s : σ) : F.Within p s := by
  obtain ⟨a, rfl⟩ | ⟨e, rfl⟩ := Prog.done_cases h
  · trivial
  · trivial

theorem within_bind {p : Prog R ε α} {f : α → Prog R ε β} {s : σ} (hp : F.Within p s)
    (hf : ∀ a t, p.run exec s = (.ok a, t) → F.Within (f a) t) : F.Within (p >>= f) s := by
  induction p generalizing s with
  | ret a => exact hf a s rfl
  | throw e => trivial
  | stmt q k ih =>
    refine ⟨hp.1, fun r t hr => ih r (hp.2 r t hr) fun a u hu => hf a u ?_⟩
    rwa [Prog.run_stmt hr]

/-- A check before the rest of a program. -/
theorem within_check {P : S → Bool} (he : ReadOnly P exec) {p : Prog R ε α} {f : α → Prog R ε β} {s : σ}
    (hreads : Reads P p) (hp : F.Within p s) (hf : ∀ a, p.run exec s = (.ok a, s) → F.Within (f a) s) :
    F.Within (p >>= f) s := by
  refine within_bind hp fun a t ht => ?_
  obtain rfl := hreads.run_store he ht
  exact hf a ht

/-- **Inside its region a program does the same from alike stores.** -/
theorem Within.run {p : Prog R ε α} {s s' : σ} (h : F.Within p s) (h' : F.Within p s') (ha : F.alike s s') :
    (p.run exec s).1 = (p.run exec s').1 ∧ F.alike (p.run exec s).2 (p.run exec s').2 ∧
      F.touches s (p.run exec s).2 := by
  induction p generalizing s s' with
  | ret a => exact ⟨rfl, ha, F.touches_refl s⟩
  | throw e => exact ⟨rfl, ha, F.touches_refl s⟩
  | stmt q k ih =>
    obtain ⟨e, hq, hq'⟩ | ⟨r, t, t', hq, hq', hat, htouch⟩ := F.step h.1 h'.1 ha
    · rw [Prog.run_stmt_error hq, Prog.run_stmt_error hq']
      exact ⟨rfl, ha, F.touches_refl s⟩
    · rw [Prog.run_stmt hq, Prog.run_stmt hq']
      obtain ⟨hres, hlike, hrest⟩ := ih r (h.2 r t hq) (h'.2 r t' hq') hat
      exact ⟨hres, hlike, F.touches_trans htouch hrest⟩

/-- What every statement inside keeps, a program inside keeps. -/
theorem Within.keeps {J : σ → Prop} {p : Prog R ε α} {s : σ} (h : F.Within p s)
    (hJ : ∀ q s r t, J s → F.inside q s → exec q s = .ok (r, t) → J t) (hs : J s) : J (p.run exec s).2 := by
  induction p generalizing s with
  | ret a => exact hs
  | throw e => exact hs
  | stmt q k ih =>
    cases hq : exec q s with
    | error e =>
      rw [Prog.run_stmt_error hq]
      exact hs
    | ok rs =>
      obtain ⟨r, t⟩ := rs
      rw [Prog.run_stmt hq]
      exact ih r (h.2 r t hq) (hJ q s r t hs h.1 hq)

/-- What a program inside one region changes is out of sight from the other. -/
def ApartFrom (F G : Region exec) : Prop := ∀ {s t}, F.touches s t → G.alike s t

/-- **Programs inside regions apart from each other commute**: each answers the same before and after the other, and
leaves a store that looks alike from its side. -/
theorem commute (hF : ∀ s, F.alike s s) (hFG : F.ApartFrom G) (hG : ∀ s, G.alike s s) (hGF : G.ApartFrom F)
    {p : Prog R ε α} {q : Prog R ε β} {s : σ} (hp : F.Within p s) (hp' : F.Within p (q.run exec s).2)
    (hq : G.Within q s) (hq' : G.Within q (p.run exec s).2) :
    (p.run exec s).1 = (p.run exec (q.run exec s).2).1 ∧ (q.run exec (p.run exec s).2).1 = (q.run exec s).1 ∧
      F.alike (p.run exec s).2 (p.run exec (q.run exec s).2).2 ∧
        G.alike (q.run exec s).2 (q.run exec (p.run exec s).2).2 := by
  have htouchp : F.touches s (p.run exec s).2 := (hp.run hp (hF s)).2.2
  have htouchq : G.touches s (q.run exec s).2 := (hq.run hq (hG s)).2.2
  obtain ⟨hres, hlike, -⟩ := hp.run hp' (hGF htouchq)
  obtain ⟨hres', hlike', -⟩ := hq.run hq' (hFG htouchp)
  exact ⟨hres, hres'.symm, hlike, hlike'⟩

end Region

end Region

/-! ## Rows with an owner -/

class Owned (ρ : Type) (ω : outParam Type) where
  owner : ρ → ω

/-- An update leaves a row with its owner. -/
class KeepsOwner (ρ : Type) {π ω : Type} [Keyed ρ] [Settable ρ π] [Owned ρ ω] : Prop where
  owner_apply : ∀ (set : π) (r : ρ), Owned.owner (Settable.apply set r) = Owned.owner r

namespace Table

variable {ρ π ω : Type} [Keyed ρ] [Owned ρ ω] [DecidableEq ω] {t t' v : Table ρ} {u w : ω} {p : ρ → Bool} {r : ρ}
  {K K' : String × String → Prop}

/-- The rows of one owner. -/
def owned (t : Table ρ) (u : ω) : List ρ := t.rows.filter fun r => Owned.owner r = u

omit [Owned ρ ω] [DecidableEq ω] in
/-- A unique index holds the value. -/
def uses (t : Table ρ) (k : String × String) : Prop := ∃ r ∈ t.rows, k ∈ Keyed.keys r

/-- The `WHERE` finds rows of one owner only. -/
def Picks (u : ω) (p : ρ → Bool) (t : Table ρ) : Prop := ∀ r ∈ t.rows, p r = true → Owned.owner r = u

/-- The tables look alike to an owner that takes no unique values but `K`. -/
structure Alike (u : ω) (K : String × String → Prop) (t t' : Table ρ) : Prop where
  owned_eq : t'.owned u = t.owned u
  uses_iff : ∀ k, K k → (t'.uses k ↔ t.uses k)

/-- The owner has changed rows of its own, and taken unique values of `K`. -/
structure Touches (u : ω) (K : String × String → Prop) (t t' : Table ρ) : Prop where
  others : ∀ w, w ≠ u → t'.owned w = t.owned w
  kept : ∀ k, t.uses k → t'.uses k
  taken : ∀ k, t'.uses k → t.uses k ∨ K k

theorem Alike.refl (t : Table ρ) : Alike u K t t := ⟨rfl, fun _ _ => Iff.rfl⟩

theorem Touches.refl (t : Table ρ) : Touches u K t t := ⟨fun _ _ => rfl, fun _ h => h, fun _ h => .inl h⟩

theorem Touches.trans (h : Touches u K t t') (h' : Touches u K t' v) : Touches u K t v :=
  ⟨fun w hw => (h'.others w hw).trans (h.others w hw), fun k hk => h'.kept k (h.kept k hk),
    fun k hk => (h'.taken k hk).elim (h.taken k) .inr⟩

/-- Another owner, who takes other unique values, sees no difference. -/
theorem Touches.alike (h : Touches u K t t') (hw : w ≠ u) (hK : ∀ k, K' k → ¬ K k) : Alike w K' t t' :=
  ⟨h.others w hw, fun k hk => ⟨fun hused => (h.taken k hused).resolve_right (hK k hk), h.kept k⟩⟩

omit [DecidableEq ω] in
/-- A `WHERE` that pins a unique value finds the rows of one owner. -/
theorem picks_of_key {k : String × String} (hr : r ∈ t.rows) (howner : Owned.owner r = u) (hk : k ∈ Keyed.keys r)
    (hp : ∀ a, p a = true → k ∈ Keyed.keys a) : Picks u p t := by
  intro a ha hpa
  rw [t.eq_of_key ha hr (hp a hpa) hk]
  exact howner

/-- A `SELECT` of rows of the owner is one of the owner's rows. -/
theorem Picks.select_eq (h : Picks u p t) : t.select p = (t.owned u).filter p := by
  unfold select owned
  rw [List.filter_filter]
  refine List.filter_congr fun r hr => ?_
  cases hp : p r with
  | true => simp [h r hr hp]
  | false => simp

theorem Alike.select_eq (h : Alike u K t t') (hp : Picks u p t) (hp' : Picks u p t') : t'.select p = t.select p := by
  rw [hp.select_eq, hp'.select_eq, h.owned_eq]

section Update

variable [Settable ρ π] [KeepsOwner ρ] {set : π}

omit [DecidableEq ω] in
theorem owner_updateRow (r : ρ) : Owned.owner (updateRow p set r) = Owned.owner r := by
  unfold updateRow
  split
  · exact KeepsOwner.owner_apply set r
  · rfl

theorem owned_update : (t.update p set).owned w = (t.owned w).map (updateRow p set) := by
  unfold owned
  rw [rows_update, List.filter_map]
  congr 1
  exact List.filter_congr fun r _ => by rw [Function.comp_apply, owner_updateRow]

omit [Owned ρ ω] [DecidableEq ω] [KeepsOwner ρ] in
theorem uses_update {k : String × String} : (t.update p set).uses k ↔ t.uses k := by
  unfold uses
  rw [rows_update]
  simp only [List.mem_map, exists_exists_and_eq_and, keys_updateRow]

theorem Alike.update (h : Alike u K t t') : Alike u K (t.update p set) (t'.update p set) := by
  refine ⟨?_, fun k hk => ?_⟩
  · rw [owned_update, owned_update, h.owned_eq]
  · rw [uses_update, uses_update]
    exact h.uses_iff k hk

theorem Picks.touches_update (h : Picks u p t) : Touches u K t (t.update p set) := by
  refine ⟨fun w hw => ?_, fun k hk => uses_update.2 hk, fun k hk => .inl (uses_update.1 hk)⟩
  rw [owned_update]
  have hid : ∀ r ∈ t.owned w, updateRow p set r = r := by
    intro r hr
    obtain ⟨hmem, howner⟩ := List.mem_filter.1 hr
    refine updateRow_neg (eq_false_of_ne_true fun hp => ?_)
    exact hw ((of_decide_eq_true howner).symm.trans (h r hmem hp))
  exact (List.map_congr_left hid).trans (List.map_id _)

end Update

/-! ## Inserts -/

omit [Owned ρ ω] [DecidableEq ω] in
theorem insert_eq_none_iff : t.insert r = none ↔ ∃ k ∈ Keyed.keys r, t.uses k := by
  constructor
  · intro h
    obtain ⟨a, ha, k, hk, hk'⟩ := exists_of_insert_none h
    exact ⟨k, hk', a, ha, hk⟩
  · rintro ⟨k, hk, a, ha, hka⟩
    unfold insert
    exact dif_neg fun h => h a ha k hka hk

omit [Owned ρ ω] [DecidableEq ω] in
theorem uses_insert (h : t.insert r = some v) {k : String × String} : v.uses k ↔ t.uses k ∨ k ∈ Keyed.keys r := by
  unfold uses
  rw [rows_insert h]
  simp only [List.mem_append, List.mem_singleton, or_and_right, exists_or, exists_eq_left]

theorem owned_insert (h : t.insert r = some v) :
    v.owned w = t.owned w ++ if Owned.owner r = w then [r] else [] := by
  unfold owned
  rw [rows_insert h, List.filter_append]
  congr 1
  split
  · rename_i hw
    simp [hw]
  · rename_i hw
    simp [hw]

theorem touches_insert (h : t.insert r = some v) (howner : Owned.owner r = u) (hK : ∀ k ∈ Keyed.keys r, K k) :
    Touches u K t v := by
  refine ⟨fun w hw => ?_, fun k hk => (uses_insert h).2 (.inl hk), fun k hk => ?_⟩
  · rw [owned_insert h, if_neg (by rw [howner]; exact hw.symm), List.append_nil]
  · exact ((uses_insert h).1 hk).imp_right (hK k)

/-- An insert of a row of the owner is refused in both tables or in neither. -/
theorem Alike.insert (h : Alike u K t t') (howner : Owned.owner r = u) (hK : ∀ k ∈ Keyed.keys r, K k) :
    (t.insert r = none ∧ t'.insert r = none) ∨
      ∃ v v', t.insert r = some v ∧ t'.insert r = some v' ∧ Alike u K v v' ∧ Touches u K t v := by
  have hnone : t'.insert r = none ↔ t.insert r = none := by
    rw [insert_eq_none_iff, insert_eq_none_iff]
    exact exists_congr fun k => and_congr_right fun hk => h.uses_iff k (hK k hk)
  cases hins : t.insert r with
  | none => exact .inl ⟨rfl, hnone.2 hins⟩
  | some v =>
    cases hins' : t'.insert r with
    | none =>
      rw [hnone.1 hins'] at hins
      cases hins
    | some v' =>
      refine .inr ⟨v, v', rfl, rfl, ⟨?_, fun k hk => ?_⟩, touches_insert hins howner hK⟩
      · rw [owned_insert hins, owned_insert hins', h.owned_eq]
      · rw [uses_insert hins, uses_insert hins', h.uses_iff k hk]

theorem Alike.insertAll {rs : List ρ} : ∀ {t t' : Table ρ}, Alike u K t t' → (∀ r ∈ rs, Owned.owner r = u) →
    (∀ r ∈ rs, ∀ k ∈ Keyed.keys r, K k) → (t.insertAll rs = none ∧ t'.insertAll rs = none) ∨
      ∃ v v', t.insertAll rs = some v ∧ t'.insertAll rs = some v' ∧ Alike u K v v' ∧ Touches u K t v := by
  induction rs with
  | nil => exact fun h _ _ => .inr ⟨_, _, rfl, rfl, h, .refl _⟩
  | cons r rs ih =>
    intro t t' h howner hK
    have hstep : ∀ t : Table ρ, t.insertAll (r :: rs) = (t.insert r).bind fun v => v.insertAll rs := fun _ => rfl
    rw [hstep, hstep]
    obtain ⟨hins, hins'⟩ | ⟨v, v', hins, hins', hv, htouch⟩ :=
      h.insert (howner r List.mem_cons_self) (hK r List.mem_cons_self)
    · rw [hins, hins']
      exact .inl ⟨rfl, rfl⟩
    · rw [hins, hins']
      obtain hrest | ⟨x, x', hx, hx', hlike, htouch'⟩ := ih hv (fun a ha => howner a (List.mem_cons_of_mem _ ha))
        fun a ha => hK a (List.mem_cons_of_mem _ ha)
      · exact .inl hrest
      · exact .inr ⟨x, x', hx, hx', hlike, htouch.trans htouch'⟩

/-- Tables with the same rows of each owner have the same rows, in another order. -/
theorem perm_of_owned [DecidableEq ρ] (h : ∀ u : ω, t.owned u = t'.owned u) : t.rows.Perm t'.rows := by
  rw [List.perm_iff_count]
  intro a
  have hcount := congrArg (List.count a) (h (Owned.owner a))
  unfold owned at hcount
  rwa [List.count_filter (by simp), List.count_filter (by simp)] at hcount

/-- Two owners have changed the table in turn, in either order: the rows are the same when each owner's are. -/
theorem perm_of_turns [DecidableEq ρ] {a b ab ba : Table ρ} (hne : u ≠ w) (ha : Touches u K t a)
    (hab : Touches w K' a ab) (hb : Touches w K' t b) (hba : Touches u K b ba) (hu : Alike u K a ba)
    (hw : Alike w K' b ab) : ba.rows.Perm ab.rows := by
  refine perm_of_owned fun x => ?_
  by_cases hxu : x = u
  · subst hxu
    rw [hu.owned_eq, hab.others x hne]
  by_cases hxw : x = w
  · subst hxw
    rw [hw.owned_eq, hba.others x hne.symm]
  · rw [hba.others x hxu, hb.others x hxw, hab.others x hxw, ha.others x hxu]

/-! ## Tables that look alike to all owners -/

theorem Alike.symm (h : Alike u K t t') : Alike u K t' t :=
  ⟨h.owned_eq.symm, fun k hk => (h.uses_iff k hk).symm⟩

theorem Alike.trans (h : Alike u K t t') (h' : Alike u K t' v) : Alike u K t v :=
  ⟨h'.owned_eq.trans h.owned_eq, fun k hk => (h'.uses_iff k hk).trans (h.uses_iff k hk)⟩

theorem Alike.mono (h : Alike u K t t') (hK : ∀ k, K' k → K k) : Alike u K' t t' :=
  ⟨h.owned_eq, fun k hk => h.uses_iff k (hK k hk)⟩

/-- Tables with the same rows of each owner have the same rows. -/
theorem Picks.of_owned (h : Picks u p t) (ht : ∀ w : ω, t'.owned w = t.owned w) : Picks u p t' := by
  intro r hr hp
  have hmem : r ∈ t'.owned (Owned.owner r) := List.mem_filter.2 ⟨hr, by simp⟩
  rw [ht] at hmem
  exact h r (List.mem_filter.1 hmem).1 hp

/-- One owner has changed tables that look alike to all, and what it did looks alike from its side. -/
theorem Alike.after {a a' : Table ρ} (h : ∀ x : ω, Alike x K' t t') (ha : Touches u K t a) (ha' : Touches u K t' a')
    (hlike : Alike u K a a') (x : ω) : Alike x K' a a' := by
  refine ⟨?_, fun k hk => ⟨fun hused => ?_, fun hused => ?_⟩⟩
  · by_cases hx : x = u
    · rw [hx, hlike.owned_eq]
    · rw [ha'.others x hx, ha.others x hx, (h x).owned_eq]
  · obtain hold | hnew := ha'.taken k hused
    · exact ha.kept k (((h x).uses_iff k hk).1 hold)
    · exact (hlike.uses_iff k hnew).1 hused
  · obtain hold | hnew := ha.taken k hused
    · exact ha'.kept k (((h x).uses_iff k hk).2 hold)
    · exact (hlike.uses_iff k hnew).2 hused

/-- Two owners have changed the table in turn, in either order: it looks alike to all. -/
theorem Alike.of_turns {L : String × String → Prop} {a b ab ba : Table ρ} (hne : u ≠ w) (ha : Touches u K t a)
    (hab : Touches w K' a ab) (hb : Touches w K' t b) (hba : Touches u K b ba) (hu : Alike u K a ba)
    (hw : Alike w K' b ab) (x : ω) : Alike x L ab ba := by
  refine ⟨?_, fun k _ => ⟨fun hused => ?_, fun hused => ?_⟩⟩
  · by_cases hxu : x = u
    · subst hxu
      rw [hu.owned_eq, hab.others x hne]
    by_cases hxw : x = w
    · subst hxw
      rw [hw.owned_eq, hba.others x hne.symm]
    · rw [hba.others x hxu, hb.others x hxw, hab.others x hxw, ha.others x hxu]
  · obtain hold | hnew := hba.taken k hused
    · obtain hold | hnew := hb.taken k hold
      · exact hab.kept k (ha.kept k hold)
      · exact (hw.uses_iff k hnew).2 hold
    · exact hab.kept k ((hu.uses_iff k hnew).1 hused)
  · obtain hold | hnew := hab.taken k hused
    · obtain hold | hnew := ha.taken k hold
      · exact hba.kept k (hb.kept k hold)
      · exact (hu.uses_iff k hnew).2 hold
    · exact hba.kept k ((hw.uses_iff k hnew).1 hused)

/-! ## What stays another's -/

/-- Every row is still there, with its unique values and of its owner. -/
def Keeps (t t' : Table ρ) : Prop :=
  ∀ r ∈ t.rows, ∃ r' ∈ t'.rows, Keyed.keys r' = Keyed.keys r ∧ Owned.owner r' = Owned.owner r

/-- The row that has the value is not the owner's. -/
def Elsewhere (u : ω) (k : String × String) (t : Table ρ) : Prop :=
  ∃ r ∈ t.rows, k ∈ Keyed.keys r ∧ Owned.owner r ≠ u

omit [DecidableEq ω] in
theorem Keeps.refl (t : Table ρ) : Keeps t t := fun r hr => ⟨r, hr, rfl, rfl⟩

omit [DecidableEq ω] in
theorem Keeps.trans (h : Keeps t t') (h' : Keeps t' v) : Keeps t v := by
  intro r hr
  obtain ⟨a, ha, hkeys, howner⟩ := h r hr
  obtain ⟨b, hb, hkeys', howner'⟩ := h' a ha
  exact ⟨b, hb, hkeys'.trans hkeys, howner'.trans howner⟩

omit [DecidableEq ω] in
theorem keeps_update [Settable ρ π] [KeepsOwner ρ] {set : π} : Keeps t (t.update p set) := by
  intro r hr
  refine ⟨updateRow p set r, ?_, keys_updateRow p set r, owner_updateRow r⟩
  rw [rows_update]
  exact List.mem_map_of_mem hr

omit [DecidableEq ω] in
theorem keeps_insert (h : t.insert r = some v) : Keeps t v := by
  intro a ha
  refine ⟨a, ?_, rfl, rfl⟩
  rw [rows_insert h]
  exact List.mem_append_left _ ha

omit [DecidableEq ω] in
theorem Elsewhere.keeps {k : String × String} (h : Elsewhere u k t) (hk : Keeps t t') : Elsewhere u k t' := by
  obtain ⟨r, hr, hkey, howner⟩ := h
  obtain ⟨a, ha, hkeys, howner'⟩ := hk r hr
  exact ⟨a, ha, hkeys ▸ hkey, howner' ▸ howner⟩

omit [DecidableEq ω] in
theorem Elsewhere.owner_ne {k : String × String} (h : Elsewhere u k t) (hr : r ∈ t.rows) (hk : k ∈ Keyed.keys r) :
    Owned.owner r ≠ u := by
  obtain ⟨a, ha, hkey, howner⟩ := h
  rw [t.eq_of_key hr ha hk hkey]
  exact howner

/-- A `WHERE` that finds no row of the owner. -/
theorem owned_update_of_spares [Settable ρ π] [KeepsOwner ρ] {set : π}
    (h : ∀ r ∈ t.rows, Owned.owner r = u → p r = false) : (t.update p set).owned u = t.owned u := by
  have hid : ∀ r ∈ t.owned u, updateRow p set r = r := by
    intro r hr
    obtain ⟨hmem, howner⟩ := List.mem_filter.1 hr
    exact updateRow_neg (h r hmem (of_decide_eq_true howner))
  rw [owned_update]
  exact (List.map_congr_left hid).trans (List.map_id _)

theorem owned_insert_of_ne (h : t.insert r = some v) (hr : Owned.owner r ≠ u) : v.owned u = t.owned u := by
  rw [owned_insert h, if_neg hr, List.append_nil]

theorem owned_insertAll_of_ne {rs : List ρ} : ∀ {t : Table ρ}, t.insertAll rs = some v →
    (∀ r ∈ rs, Owned.owner r ≠ u) → v.owned u = t.owned u := by
  induction rs with
  | nil => intro t h _; cases h; rfl
  | cons r rs ih =>
    intro t h hne
    obtain ⟨a, ha, hrest⟩ := Option.bind_eq_some_iff.1 (show (t.insert r).bind (fun a => a.insertAll rs) = some v from h)
    rw [ih hrest fun b hb => hne b (List.mem_cons_of_mem _ hb), owned_insert_of_ne ha (hne r List.mem_cons_self)]

end Table

end Smink.Store
