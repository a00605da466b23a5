import Smink.Play.Secrecy
import Smink.Rpc.History
import Smink.Rpc.Net

/-!
# What is published tells nothing about a hidden layout

`layout_secret_iff` is about what a player is answered. The handlers send more: to channels, to the exchange and to the
queues, from which the worker publishes again. While a round is open, and as long as two layouts agree on the tiles that
are asked, all of this is the same for both, in every run of the services one call after another and whatever is
rejected (`published_secret`). The one answer that shows a layout, that of `getSession`, is not sent on.
-/

namespace Smink

open Store

/-! ## What is claimed -/

/-- The services after one call. -/
def Service.after (D : Digest) (call : Service) (net : Net) : Net := ((call.prog D).run execNet net).2

/-- The services after one call after another. -/
def runServices (D : Digest) (calls : List Service) (net : Net) : Net :=
  calls.foldl (fun net call => call.after D net) net

/-- The two layouts agree on the tile that the call asks about. -/
def Service.AgreesOn (betId : Id) (L : Layout) (db : Db) : Service → Prop
  | .command _ _ _ request => Smink.AgreesOn betId L db request
  | _ => True

/-- The bet stays open all along, and the other layout agrees with its own on every tile that is asked. -/
def StaysOpen (D : Digest) (betId : Id) (L : Layout) : List Service → Net → Prop
  | [], _ => True
  | call :: calls, net => call.AgreesOn betId L net.db ∧ IsOpen betId (call.after D net).db ∧
    StaysOpen D betId L calls (call.after D net)

instance (betId : Id) (L : Layout) (db : Db) (call : Service) : Decidable (call.AgreesOn betId L db) := by
  unfold Service.AgreesOn
  split <;> infer_instance

instance decidableStaysOpen (D : Digest) (betId : Id) (L : Layout) :
    ∀ (calls : List Service) (net : Net), Decidable (StaysOpen D betId L calls net)
  | [], _ => .isTrue trivial
  | _ :: calls, _ => @instDecidableAnd _ _ _ (@instDecidableAnd _ _ _ (decidableStaysOpen D betId L calls _))

/-- The services over the other database. -/
def Net.relay (betId : Id) (L : Layout) (net : Net) : Net := { net with db := net.db.relay betId L }

section Calls

variable {D : Digest} {betId : Id} {L : Layout} {net : Net} {db : Db} {α : Type}

/-! ## Consumers -/

theorem execNet_relay (betId : Id) (L : Layout) (net : Net) {q : Wire} (hq : q.offDb) :
    execNet q (net.relay betId L) = (execNet q net).map fun x => (x.1, x.2.relay betId L) := by
  cases q with
  | sql q => exact hq.elim
  | _ => rfl

theorem run_offDb (betId : Id) (L : Layout) {net : Net} {p : Wired α} (hp : p.Only Wire.offDb) :
    (p.run execNet (net.relay betId L)).2 =
    (p.run execNet net).2.relay betId L ∧ (p.run execNet net).2.db = net.db := by
  induction p generalizing net with
  | ret a => exact ⟨rfl, rfl⟩
  | throw e => exact ⟨rfl, rfl⟩
  | stmt q k ih =>
    have himage := execNet_relay betId L net hp.1
    cases he : execNet q net with
    | error e =>
      rw [he] at himage
      rw [Prog.run_stmt_error he, Prog.run_stmt_error himage]
      exact ⟨rfl, rfl⟩
    | ok x =>
      obtain ⟨r, t⟩ := x
      rw [he] at himage
      rw [Prog.run_stmt he, Prog.run_stmt himage, ← execNet_db hp.1 he]
      exact ih r (hp.2 r)

/-! ## Commands and credits -/

/-- The crediting of a deposit has nothing to do with bets. -/
theorem unaware_creditDeposit (now : Time) (depositId : Id) (extraMetadata : Metadata → Metadata) :
    Unaware betId L (creditDeposit now depositId extraMetadata) := by
  unfold creditDeposit creditWallet
  refine unaware_ask rfl fun found => ?_
  split
  · refine unaware_ask rfl fun claimed => ?_
    split
    · refine blind_bind (unaware_perform rfl (unaware_ask rfl fun _ => unaware_done rfl)) fun wallet => ?_
      split
      · exact unaware_perform rfl (unaware_done rfl)
      · exact unaware_ask rfl fun _ => unaware_done rfl
    · exact unaware_done rfl
  · exact unaware_done rfl

/-- Only `getSession` shows a layout, and it sends nothing. -/
theorem sent_shows {fresh : Fresh} {emission : Emission} {fails : Target → Bool} {request : Request}
    (h : Shows betId db request) (t : Db) : (EngineController.handle D fresh emission fails request t).sent = [] := by
  cases request with
  | getSession userId sessionId =>
    unfold EngineController.handle
    cases (serve D fresh (.getSession userId sessionId)).run exec t with
    | mk result after =>
      cases result with
      | error e => rfl
      | ok response => rfl
  | _ => exact h.elim

/-- What a handler sends, whatever the layout. -/
theorem handle_relay (hs : Secret betId L db) (fresh : Fresh) (emission : Emission) (fails : Target → Bool)
    {request : Request} (hagree : AgreesOn betId L db request)
    (hopen : IsOpen betId (EngineController.handle D fresh emission fails request db).after) :
    (EngineController.handle D fresh emission fails request (db.relay betId L)).after =
        (EngineController.handle D fresh emission fails request db).after.relay betId L ∧
      (EngineController.handle D fresh emission fails request (db.relay betId L)).sent =
        (EngineController.handle D fresh emission fails request db).sent ∧
      Secret betId L (EngineController.handle D fresh emission fails request db).after := by
  obtain ⟨hstore, hkeep, hiff⟩ := serve_answered D fresh request hs hagree
  rw [handle_after] at hopen
  rw [handle_after, handle_after]
  refine ⟨hstore, ?_, hkeep⟩
  by_cases hshows : Shows betId db request
  · rw [sent_shows hshows, sent_shows hshows]
  · have hsame := (hiff hopen).2 hshows
    unfold EngineController.handle
    cases hrun : (serve D fresh request).run exec db with
    | mk result t =>
      cases hrun' : (serve D fresh request).run exec (db.relay betId L) with
      | mk result' t' =>
        rw [hrun, hrun'] at hsame
        have hresult : result' = result := hsame
        subst hresult
        cases result' with
        | error e => rfl
        | ok response =>
          dsimp only
          split <;> rfl

/-! ## Runs -/

theorem after_command {fresh : Fresh} {emission : Emission} {fails : Target → Bool} {request : Request} :
    (Service.command fresh emission fails request).after D net =
      { net with
        db := (EngineController.handle D fresh emission fails request net.db).after
        sent := net.sent ++ (EngineController.handle D fresh emission fails request net.db).sent } := by
  show (Prog.run execNet (EngineController.handler D fresh emission fails request >>= fun response =>
    Prog.ret (some response)) net).2 = _
  rw [Prog.run_map, run_handler]

theorem after_credit {now : Time} {depositId : Id} {extraMetadata : Metadata → Metadata} :
    (Service.credit now depositId extraMetadata).after D net =
      { net with db := ((creditDeposit now depositId extraMetadata).run exec net.db).2 } := by
  show (Prog.run execNet (Sql.wired (creditDeposit now depositId extraMetadata) >>= fun _ => Prog.ret none) net).2 = _
  rw [Prog.run_map, run_sql]

/-- One call leaves the services as it would have with the other layout. -/
theorem after_relay {call : Service} (hs : Secret betId L net.db) (hagree : call.AgreesOn betId L net.db)
    (hopen : IsOpen betId (call.after D net).db) :
    call.after D (net.relay betId L) = (call.after D net).relay betId L ∧ Secret betId L (call.after D net).db := by
  have consumer : ∀ {p : Wired (Option Response)}, p.Only Wire.offDb →
      (p.run execNet (net.relay betId L)).2 = (p.run execNet net).2.relay betId L ∧
        Secret betId L (p.run execNet net).2.db := by
    intro p hp
    obtain ⟨himage, hdb⟩ := run_offDb betId L hp
    exact ⟨himage, by rw [hdb]; exact hs⟩
  cases call with
  | command fresh emission fails request =>
    rw [after_command] at hopen
    obtain ⟨hafter, hsent, hkeep⟩ := handle_relay hs fresh emission fails hagree hopen
    rw [after_command, after_command]
    show Net.mk _ _ _ = _ ∧ _
    unfold Net.relay
    rw [hafter, hsent]
    exact ⟨rfl, hkeep⟩
  | credit now depositId extraMetadata =>
    obtain ⟨himage, -, hkeep⟩ := unaware_creditDeposit now depositId extraMetadata net.db hs
    rw [after_credit, after_credit]
    unfold Net.relay
    rw [himage]
    exact ⟨rfl, hkeep⟩
  | job n fails =>
    refine consumer (Prog.only_bind ⟨trivial, fun _ => trivial⟩ fun job => ?_)
    exact Prog.only_bind (offDb_take job) fun _ => trivial
  | event n fails =>
    refine consumer (Prog.only_bind ⟨trivial, fun _ => trivial⟩ fun event => ?_)
    exact Prog.only_bind (offDb_takeEvent event) fun _ => trivial

theorem run_relay {calls : List Service} (hs : Secret betId L net.db) (hopen : StaysOpen D betId L calls net) :
    runServices D calls (net.relay betId L) = (runServices D calls net).relay betId L := by
  induction calls generalizing net with
  | nil => rfl
  | cons call calls ih =>
    obtain ⟨hagree, hafter, hrest⟩ := hopen
    obtain ⟨himage, hkeep⟩ := after_relay hs hagree hafter
    show runServices D calls (call.after D (net.relay betId L)) = _
    rw [himage]
    exact ih hkeep hrest

end Calls

/-- **All that is published and sent is the same for both layouts**, as long as the round is open. -/
theorem published_secret (D : Digest) (db : Db) (betId : Id) (L : Layout) (calls : List Service)
    (hs : Secret betId L db) (hopen : StaysOpen D betId L calls (Net.start db)) :
    (runServices D calls (Net.start (db.relay betId L))).sent = (runServices D calls (Net.start db)).sent ∧
      (runServices D calls (Net.start (db.relay betId L))).messages =
        (runServices D calls (Net.start db)).messages := by
  have himage : runServices D calls (Net.start (db.relay betId L)) =
    (runServices D calls (Net.start db)).relay betId L :=
    run_relay hs hopen
  rw [himage]
  exact ⟨rfl, rfl⟩

/-- Two tiles of a Mines round that stays open, and a look at the session, which shows the mines to its player; then a
Plinko drop. The worker takes the jobs in between, one of them twice. -/
def minesServices : List Service :=
  let command (n : Nat) (request : Request) : Service := .command (freshAt n) ⟨"e", n⟩ (fun _ => false) request
  [command 1 (.revealMines "u1" "s1" "MIN-0" (some 20)), .job 0 fun _ => false, command 2 (.getSession "u1" "s1"),
    command 3 (.revealMines "u1" "s1" "MIN-0" (some 21)), .job 0 fun _ => false, .job 1 fun _ => false,
    command 4 (.startSession "u1" .plinko),
    command 5 (.placeBet "u1" "4s" .plinko (some 5) { risk := "low", rows := some 8 }), .event 0 fun _ => false]

theorem published_secret_minesServices :
    (runServices zeroDigest minesServices (Net.start minesOpened)).messages.length = 10 ∧
      (runServices zeroDigest minesServices (Net.start (minesOpened.relay "0b" (.mines [5, 6, 7])))).messages =
        (runServices zeroDigest minesServices (Net.start minesOpened)).messages := by
  refine ⟨by decide +kernel, (published_secret zeroDigest minesOpened "0b" (.mines [5, 6, 7]) minesServices ?_ ?_).2⟩
  · decide +kernel
  · decide +kernel

end Smink
