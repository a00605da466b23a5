import Smink.Deposits.Inspect
import Smink.Store.Simulation
import Mathlib.Data.List.Sort

/-!
# Runs of scans

A run of scans is a list of `ScanInput`s. `inspections` lists the inspections of a run in order, each with what it finds
and what it leaves; they are the scans themselves, cut where one inspection ends and the next begins
(`run_scan`). The rule for properties of runs is `inspections_inv`: an invariant of the inspections holds at each of
them. Where a property is about the inspections so far, a run is a trace of them (`trace_inspections`).
-/

namespace Smink

open Store

/-- One inspection of a scan: the store the scan started from, the inspection's arguments, and the stores around it. -/
structure Inspection where
  input : ScanInput
  start : Db
  allPending : List PendingDeposit
  deposit : PendingDeposit
  hashes : List String
  before : Db
  after : Db

namespace Inspection

def now (v : Inspection) : Time := v.input.now v.deposit

def explorer (v : Inspection) : Explorer := v.input.explorer v.deposit

def sighting (v : Inspection) : Option Sighting :=
  Smink.sighting v.explorer v.now v.deposit v.hashes v.input.mode

end Inspection

def inspectIn (I : ScanInput) (allPending : List PendingDeposit) (deposit : PendingDeposit) (hashes : List String) :
    Sql (List String) :=
  inspect (I.explorer deposit) (I.now deposit) deposit allPending hashes I.mode

/-- The inspections of the loop of a scan. -/
def loopInspections (I : ScanInput) (start : Db) (allPending : List PendingDeposit) :
    List PendingDeposit → List String → Db → List Inspection
  | [], _, _ => []
  | deposit :: rest, hashes, db =>
    if inScan I.mode deposit then
      match (inspectIn I allPending deposit hashes).run exec db with
      | (.ok hashes', t) =>
        ⟨I, start, allPending, deposit, hashes, db, t⟩ :: loopInspections I start allPending rest hashes' t
      | (.error _, t) => [⟨I, start, allPending, deposit, hashes, db, t⟩]
    else loopInspections I start allPending rest hashes db

/-- The deposits and the hashes a scan of `db` works with. -/
def pendingOf (db : Db) : List PendingDeposit :=
  newestDeposits (((db.sminkTransactions.select fun t => t.type == .deposit && t.status == .pending).flatMap fun t =>
    (db.usersOf t).map fun u => (t, u)).map pendingDeposit)

def creditedHashesOf (db : Db) : List String :=
  ((db.sminkTransactions.select fun t =>
    t.type == .deposit && (t.status == .confirmed || t.status == .review)).map fun row =>
      row.metadata.txHash.getD "").filter fun hash => hash != ""

theorem run_scan (I : ScanInput) (db : Db) :
    (scan I).run exec db = (scanLoop I (pendingOf db) (pendingOf db) (creditedHashesOf db)).run exec db := rfl

def scanInspections (I : ScanInput) (db : Db) : List Inspection :=
  loopInspections I db (pendingOf db) (pendingOf db) (creditedHashesOf db) db

/-- The store after a run of scans. -/
def runScans : List ScanInput → Db → Db
  | [], db => db
  | I :: rest, db => runScans rest ((scan I).run exec db).2

/-- The inspections of a run of scans. -/
def inspections : List ScanInput → Db → List Inspection
  | [], _ => []
  | I :: rest, db => scanInspections I db ++ inspections rest ((scan I).run exec db).2

/-! ## The deposits of a scan -/

/-- The row of the deposit is still as it was read. -/
def StillPending (db : Db) (deposit : PendingDeposit) : Prop :=
  ∃ r ∈ db.sminkTransactions.rows, r.type = .deposit ∧ r.status = .pending ∧ ∃ u, deposit = pendingDeposit (r, u)

theorem mem_pendingOf {db : Db} {deposit : PendingDeposit} :
    deposit ∈ pendingOf db ↔ ∃ r ∈ db.sminkTransactions.rows, r.type = .deposit ∧ r.status = .pending ∧
      ∃ u ∈ db.users.rows, u.id = r.userId ∧ deposit = pendingDeposit (r, u) := by
  unfold pendingOf newestDeposits
  rw [List.mem_insertionSort, List.mem_map]
  constructor
  · rintro ⟨⟨r, u⟩, hru, rfl⟩
    obtain ⟨r', hr, hu⟩ := List.mem_flatMap.1 hru
    obtain ⟨u', hu', he⟩ := List.mem_map.1 hu
    cases he
    obtain ⟨hm, hp⟩ := Table.mem_select.1 hr
    obtain ⟨hum, hup⟩ := Table.mem_select.1 hu'
    simp only [Bool.and_eq_true, beq_iff_eq] at hp
    exact ⟨r, hm, hp.1, hp.2, u, hum, beq_iff_eq.1 hup, rfl⟩
  · rintro ⟨r, hm, hd, hs, u, hum, hu, rfl⟩
    refine ⟨(r, u), List.mem_flatMap.2 ⟨r, Table.mem_select.2 ⟨hm, by simp [hd, hs]⟩, ?_⟩, rfl⟩
    exact List.mem_map.2 ⟨u, Table.mem_select.2 ⟨hum, by simp [hu]⟩, rfl⟩

theorem stillPending_of_mem {db : Db} {deposit : PendingDeposit} (h : deposit ∈ pendingOf db) :
    StillPending db deposit := by
  obtain ⟨r, hr, hd, hs, u, -, -, rfl⟩ := mem_pendingOf.1 h
  exact ⟨r, hr, hd, hs, u, rfl⟩

/-- The users of a row: its owner, or none. -/
theorem length_usersOf (db : Db) (t : SminkTransaction) : (db.usersOf t).length ≤ 1 := by
  cases h : db.usersOf t with
  | nil => simp
  | cons u us =>
    obtain ⟨hum, hup⟩ := Table.mem_select.1 (by rw [h]; simp : u ∈ db.usersOf t)
    have hone : db.usersOf t = [u] := db.users.select_eq_of_key (k := ("id", t.userId)) hum hup
      fun a _ ha => by simpa [Keyed.keys] using (beq_iff_eq.1 ha).symm
    rw [← h, hone]
    simp

theorem flatMap_sublist {α β γ : Type} {f : α → List β} {g : β → γ} {k : α → γ} (hlen : ∀ a, (f a).length ≤ 1)
    (hk : ∀ a, ∀ b ∈ f a, g b = k a) : ∀ l : List α, List.Sublist ((l.flatMap f).map g) (l.map k)
  | [] => .slnil
  | a :: l => by
    rw [List.flatMap_cons, List.map_append, List.map_cons]
    have ih := flatMap_sublist hlen hk l
    match h : f a with
    | [] => exact ih.cons _
    | [b] =>
      have hb : g b = k a := hk a b (by rw [h]; simp)
      rw [List.map_cons, hb]
      exact ih.cons_cons _
    | b :: b' :: l' => exact absurd (hlen a) (by rw [h]; simp)

/-- A scan inspects each deposit at most once. -/
theorem pendingOf_ids_nodup (db : Db) : ((pendingOf db).map PendingDeposit.id).Nodup := by
  unfold pendingOf newestDeposits
  rw [((List.perm_insertionSort _ _).map _).nodup_iff, List.map_map]
  have hsub := flatMap_sublist (f := fun t => (db.usersOf t).map fun u => (t, u))
    (g := PendingDeposit.id ∘ pendingDeposit)
    (k := SminkTransaction.id) (fun t => by simpa using length_usersOf db t)
    (by rintro a b hb; obtain ⟨u, -, rfl⟩ := List.mem_map.1 hb; rfl)
    (db.sminkTransactions.select fun t => t.type == .deposit && t.status == .pending)
  refine hsub.nodup (List.pairwise_map.2 ((db.sminkTransactions.unique.imp ?_).filter _))
  intro a b hab hid
  exact hab ("id", a.id) (by simp [Keyed.keys]) (by simp [Keyed.keys, hid])

/-! ## The rule for runs -/

/-- What is known of an inspection that a scan makes: its row is pending, and it ends in one of the exits. -/
structure InspectionStep (v : Inspection) (r r' : SminkTransaction) (hashes' : List String) : Prop where
  mem : r ∈ v.before.sminkTransactions.rows
  deposit_type : r.type = .deposit
  pending : r.status = .pending
  read : ∃ u, v.deposit = pendingDeposit (r, u)
  scanned : v.deposit ∈ pendingOf v.start
  rewritten : Rewritten v.before v.after r r'
  exit : Exit v.before v.explorer v.now v.deposit v.allPending v.hashes v.input.mode r r' hashes'

theorem InspectionStep.id_eq {v : Inspection} {r r' : SminkTransaction} {hashes' : List String}
    (h : InspectionStep v r r' hashes') : v.deposit.id = r.id := by
  obtain ⟨u, hu⟩ := h.read
  rw [hu]
  rfl

theorem StillPending.of_rewritten {db t : Db} {r r' : SminkTransaction} {deposit : PendingDeposit}
    (h : StillPending db deposit) (hrw : Rewritten db t r r') (hne : deposit.id ≠ r.id) : StillPending t deposit := by
  obtain ⟨a, ha, hd, hs, u, rfl⟩ := h
  exact ⟨a, hrw.mem_iff.2 (.inr ⟨ha, hne⟩), hd, hs, u, rfl⟩

section Loop

variable {I : ScanInput} {start : Db} {J : List String → Db → Prop}

/-- What every step keeps holds at each inspection of a scan and at its end. -/
theorem loop_inv : ∀ {rest : List PendingDeposit} {hashes : List String} {db : Db},
    (∀ d ∈ rest, StillPending db d) → (∀ d ∈ rest, d ∈ pendingOf start) → (rest.map PendingDeposit.id).Nodup →
    (∀ v ∈ loopInspections I start (pendingOf start) rest hashes db, ∀ r r' hashes', v.start = start →
      InspectionStep v r r' hashes' → J v.hashes v.before → J hashes' v.after) →
    J hashes db →
    (∀ v ∈ loopInspections I start (pendingOf start) rest hashes db, v.start = start ∧ J v.hashes v.before ∧
      ∃ r r' hashes', InspectionStep v r r' hashes' ∧ J hashes' v.after) ∧
    ∃ hashes' t, (scanLoop I (pendingOf start) rest hashes).run exec db = (.ok (), t) ∧ J hashes' t
  | [], hashes, db, _, _, _, _, hJ => ⟨(fun _ hv => nomatch hv), hashes, db, rfl, hJ⟩
  | deposit :: rest, hashes, db, hstill, hmem, hnodup, hstep, hJ => by
    obtain ⟨hne, hnodup'⟩ := List.nodup_cons.1 hnodup
    rw [loopInspections, scanLoop] at *
    by_cases hin : inScan I.mode deposit = true
    · obtain ⟨r, hr, hd, hs, u, hu⟩ := hstill deposit (by simp)
      obtain ⟨hashes', r', t, hrun, hrw, hexit⟩ := run_inspect (pendingOf start) (I.explorer deposit) (I.now deposit)
        hashes I.mode hr hd hs hu
      have hrun' : (inspectIn I (pendingOf start) deposit hashes).run exec db = (.ok hashes', t) := hrun
      simp only [hin, if_true, hrun'] at hstep ⊢
      rw [Prog.run_bind_ok hrun]
      have hid : deposit.id = r.id := by rw [hu]; rfl
      have hnow : InspectionStep ⟨I, start, pendingOf start, deposit, hashes, db, t⟩ r r' hashes' :=
        ⟨hr, hd, hs, ⟨u, hu⟩, hmem deposit (by simp), hrw, hexit⟩
      have hJ' := hstep _ (List.mem_cons_self ..) r r' hashes' rfl hnow hJ
      have hstill' : ∀ d ∈ rest, StillPending t d := fun d hd' =>
        (hstill d (by simp [hd'])).of_rewritten hrw fun he => hne (List.mem_map.2 ⟨d, hd', he.trans hid.symm⟩)
      obtain ⟨hall, hend⟩ := loop_inv hstill' (fun d hd' => hmem d (by simp [hd'])) hnodup'
        (fun v hv => hstep v (List.mem_cons_of_mem _ hv)) hJ'
      refine ⟨fun v hv => ?_, hend⟩
      rcases List.mem_cons.1 hv with rfl | hv
      · exact ⟨rfl, hJ, r, r', hashes', hnow, hJ'⟩
      · exact hall v hv
    · simp only [hin, Bool.false_eq_true, if_false] at hstep ⊢
      exact loop_inv (fun d hd => hstill d (by simp [hd])) (fun d hd => hmem d (by simp [hd])) hnodup' hstep hJ

/-- The rule for one scan. -/
theorem scan_inv {db : Db}
    (hstep : ∀ v ∈ scanInspections I db, ∀ r r' hashes', v.start = db → InspectionStep v r r' hashes' →
      J v.hashes v.before → J hashes' v.after) (hJ : J (creditedHashesOf db) db) :
    (∀ v ∈ scanInspections I db, v.start = db ∧ J v.hashes v.before ∧
      ∃ r r' hashes', InspectionStep v r r' hashes' ∧ J hashes' v.after) ∧
    ∃ hashes' t, (scan I).run exec db = (.ok (), t) ∧ J hashes' t :=
  run_scan I db ▸ loop_inv (fun _ hd => stillPending_of_mem hd) (fun _ hd => hd) (pendingOf_ids_nodup db) hstep hJ

end Loop

/-- **The rule for runs of scans**: what every inspection keeps holds at each of them and at the end. -/
theorem inspections_inv {P : Db → Prop} : ∀ {Is : List ScanInput} {db : Db},
    (∀ v ∈ inspections Is db, ∀ r r' hashes', InspectionStep v r r' hashes' → P v.before → P v.after) → P db →
    (∀ v ∈ inspections Is db, P v.before ∧ P v.after ∧ ∃ r r' hashes', InspectionStep v r r' hashes') ∧
      P (runScans Is db)
  | [], db, _, hP => ⟨(fun _ hv => nomatch hv), hP⟩
  | I :: Is, db, hstep, hP => by
    obtain ⟨hall, -, t, hrun, hPt⟩ := scan_inv (J := fun _ => P) (I := I)
      (fun v hv r r' hashes' _ => hstep v (List.mem_append_left _ hv) r r' hashes') hP
    have hP' : P ((scan I).run exec db).2 := by rw [hrun]; exact hPt
    have htail := inspections_inv (fun v hv => hstep v (List.mem_append_right _ hv)) hP'
    refine ⟨fun v hv => ?_, htail.2⟩
    rcases List.mem_append.1 hv with hv | hv
    · obtain ⟨-, hb, r, r', hashes', hs, ha⟩ := hall v hv
      exact ⟨hb, ha, r, r', hashes', hs⟩
    · exact htail.1 v hv

/-! ## Runs as traces -/

/-- The inspection leads from one store to another. -/
structure Inspects (db : Db) (v : Inspection) (t : Db) : Prop where
  before : v.before = db
  after : ((inspectIn v.input v.allPending v.deposit v.hashes).run exec db).2 = t
  kept : v.after = t
  step : ∃ r r' hashes', InspectionStep v r r' hashes'

/-- The loop of a scan inspects the deposits of its mode, and leaves what the last inspection leaves. -/
theorem trace_loop {I : ScanInput} {start : Db} : ∀ {rest : List PendingDeposit} (hashes : List String) {db : Db},
    (∀ d ∈ rest, StillPending db d) → (∀ d ∈ rest, d ∈ pendingOf start) → (rest.map PendingDeposit.id).Nodup →
      (loopInspections I start (pendingOf start) rest hashes db).map Inspection.deposit = rest.filter (inScan I.mode) ∧
        Trace Inspects db (loopInspections I start (pendingOf start) rest hashes db)
          ((scanLoop I (pendingOf start) rest hashes).run exec db).2
  | [], hashes, db, _, _, _ => ⟨rfl, .nil db⟩
  | deposit :: rest, hashes, db, hstill, hmem, hnodup => by
    obtain ⟨hne, hnodup'⟩ := List.nodup_cons.1 hnodup
    rw [loopInspections, scanLoop]
    by_cases hin : inScan I.mode deposit = true
    · obtain ⟨r, hr, hd, hs, u, hu⟩ := hstill deposit (by simp)
      obtain ⟨hashes', r', t, hrun, hrw, hexit⟩ := run_inspect (pendingOf start) (I.explorer deposit) (I.now deposit)
        hashes I.mode hr hd hs hu
      have hrun' : (inspectIn I (pendingOf start) deposit hashes).run exec db = (.ok hashes', t) := hrun
      have hid : deposit.id = r.id := by rw [hu]; rfl
      have hstill' : ∀ d ∈ rest, StillPending t d := fun d hd' =>
        (hstill d (by simp [hd'])).of_rewritten hrw fun he => hne (List.mem_map.2 ⟨d, hd', he.trans hid.symm⟩)
      obtain ⟨hmap, htrace⟩ := trace_loop (I := I) hashes' hstill' (fun d hd' => hmem d (by simp [hd'])) hnodup'
      simp only [hin, if_true, hrun', List.map_cons, List.filter_cons_of_pos hin]
      rw [Prog.run_bind_ok hrun]
      refine ⟨congrArg (deposit :: ·) hmap, .cons ⟨rfl, ?_, rfl, r, r', hashes', ?_⟩ htrace⟩
      · show ((inspectIn I (pendingOf start) deposit hashes).run exec db).2 = t
        rw [hrun']
      · exact ⟨hr, hd, hs, ⟨u, hu⟩, hmem deposit (by simp), hrw, hexit⟩
    · simp only [hin, Bool.false_eq_true, if_false, List.filter_cons_of_neg hin]
      exact trace_loop hashes (fun d hd => hstill d (by simp [hd])) (fun d hd => hmem d (by simp [hd])) hnodup'

/-- **A scan inspects the pending deposits of its mode**, once each. -/
theorem scan_inspects (I : ScanInput) (db : Db) :
    (scanInspections I db).map Inspection.deposit = (pendingOf db).filter (inScan I.mode) ∧
      Trace Inspects db (scanInspections I db) ((scan I).run exec db).2 :=
  run_scan I db ▸ trace_loop _ (fun _ hd => stillPending_of_mem hd) (fun _ hd => hd) (pendingOf_ids_nodup db)

theorem trace_inspections : ∀ (Is : List ScanInput) (db : Db), Trace Inspects db (inspections Is db) (runScans Is db)
  | [], db => .nil db
  | I :: Is, db => (scan_inspects I db).2.append (trace_inspections Is ((scan I).run exec db).2)

end Smink
