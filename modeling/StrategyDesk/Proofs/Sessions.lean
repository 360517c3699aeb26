import Mathlib.Data.List.Basic
import StrategyDesk.Proofs.Tables

set_option autoImplicit false

namespace StrategyDesk
open Engine

variable {σ α β : Type}

namespace Engine

theorem not_succeeds_of_outcome {x : Exchange} {f : Failure}
    (h : x.reply.outcome x.call = .error f) : x.succeeds = false := by
  cases hs : x.succeeds with
  | false => rfl
  | true =>
    obtain ⟨body, hbody⟩ := (Reply.outcome_isOk_iff (c := x.call)).2 hs
    rw [hbody] at h
    cases h

theorem succeeds_of_sendWhileOk {e : Behaviour σ} {s : σ} {cs : List Call}
    (h : (sendWhileOk e s cs).failure = none) :
    ∀ x ∈ (sendWhileOk e s cs).sent, x.succeeds = true := by
  induction cs generalizing s with
  | nil => simp [sendWhileOk]
  | cons c cs ih =>
    simp only [sendWhileOk] at h ⊢
    split at h
    · simp at h
    · rename_i body hbody
      have hc : (e s c).1.succeeds = true := Reply.outcome_isOk_iff.1 ⟨body, hbody⟩
      intro x hx
      simp only [List.mem_cons] at hx
      rcases hx with rfl | hx
      · exact hc
      · exact ih h x hx

def Sweep.result (w : Sweep σ) : Except Failure Unit :=
  match w.failure with
  | some f => .error f
  | none => .ok ()

end Engine

namespace Work

section Steps

variable (s : Session σ)

@[simp]
theorem on_map (f : α → β) (w : Work σ α) :
    (f <$> w).on s = ((w.on s).1.map f, (w.on s).2) := by
  rw [← bind_pure_comp, on_bind]
  rcases w.on s with ⟨a | e, t⟩ <;> rfl

@[simp]
theorem on_query (f : Store → α) : (query f).on s = (.ok (f s.rows), s) := rfl

@[simp]
theorem on_change (f : Store → Store) :
    (change f).on s = (.ok (), { s with rows := f s.rows }) := rfl

@[simp]
theorem on_report (log : Log) : (report log).on s = (.ok (), { s with log := s.log ++ log }) := rfl

@[simp]
theorem on_note (id : Int) : (note id).on s = (.ok (), { s with noted := s.noted ++ [id] }) := rfl

@[simp]
theorem on_orFail (x : Except Failure α) : (orFail x).on s = (x, s) := by
  cases x <;> rfl

@[simp]
theorem on_orCrash (x : Except Crash α) : (orCrash x).on s = (x.mapError .crash, s) := by
  cases x <;> rfl

@[simp]
theorem on_rollback : (rollback (σ := σ)).on s =
    (.ok (), { s with rows := s.kept, flaw := none }) :=
  rfl

theorem on_flush {s : Session σ} (h : s.flaw = none) : flush.on s = (.ok (), s) := by
  rw [flush, on_bind, on_get]
  simp only [h, on_pure]

theorem on_commit {s : Session σ} (h : s.flaw = none) :
    commit.on s = (.ok (), { s with kept := s.rows }) := by
  simp only [commit, on_bind, on_flush h, on_modify]

end Steps

theorem on_bind_of_ok {w : Work σ α} {f : α → Work σ β} {s t : Session σ} {a : α}
    (h : w.on s = (.ok a, t)) : (w >>= f).on s = (f a).on t := by
  rw [on_bind, h]

theorem on_bind_of_error {w : Work σ α} {f : α → Work σ β} {s t : Session σ} {e : Failure}
    (h : w.on s = (.error e, t)) : (w >>= f).on s = (.error e, t) := by
  rw [on_bind, h]

def called (e : Behaviour σ) (c : Call) (s : Session σ) : Session σ :=
  let x : Exchange := ⟨c, (e s.engine c).1⟩
  { s with engine := (e s.engine c).2, sent := s.sent ++ [x], log := s.log ++ x.log }

theorem on_call (e : Behaviour σ) (c : Call) (s : Session σ) :
    (call e c).on s = (((e s.engine c).1.outcome c).map fun _ => (), called e c s) := by
  rw [call, on_bind_of_ok (on_get s), on_bind_of_ok (on_modify _ s)]
  cases (e s.engine c).1.outcome c <;> rfl

theorem on_transaction (w : Work σ α) (s : Session σ) (h : (w.on s).2.flaw = none) :
    (transaction w).on s =
      match w.on s with
      | (.ok a, t) => (.ok a, { t with kept := t.rows })
      | (.error f, t) => (.error f, { t with rows := t.kept }) := by
  rw [transaction, on_tryCatch, on_bind]
  rcases hw : w.on s with ⟨a | a, t⟩
  · rw [hw] at h
    change t.flaw = none at h
    simp only [on_bind, on_rollback, on_throw, h]
  · rw [hw] at h
    change t.flaw = none at h
    simp only [on_bind, on_commit h, on_pure]

def reached (rows : List Assignment) (sent : List Exchange) : List Assignment :=
  rows.take (sent.filter Exchange.succeeds).length

theorem reached_of_ok {e : Behaviour σ} {s : σ} {callOf : Assignment → Call}
    {rows : List Assignment} (h : (sendWhileOk e s (rows.map callOf)).failure = none) :
    reached rows (sendWhileOk e s (rows.map callOf)).sent = rows := by
  have hall := List.filter_eq_self.2 (succeeds_of_sendWhileOk h)
  have hcalls := congrArg List.length (sendWhileOk_calls_of_ok h)
  rw [List.length_map, List.length_map] at hcalls
  rw [reached, hall, hcalls, List.take_length]

section Loops

variable (e : Behaviour σ) {callOf : Assignment → Call} {next : Assignment → Work σ Unit}
  (change : Assignment → Store → Store) (notes : Assignment → List Int) (lines : Int → Int → Log)
  {rows : List Assignment}
  (hpair : ∀ a ∈ rows, (callOf a).pair? = some (a.walletId, a.strategyId))
  (hnext : ∀ a t, (next a).on t = (.ok (), { t with
    rows := change a t.rows, noted := t.noted ++ notes a,
    log := t.log ++ lines a.walletId a.strategyId }))
include hpair hnext

theorem on_callEach (s : Session σ) :
    let sweep := sendWhileOk e s.engine (rows.map callOf)
    let done := reached rows sweep.sent
    (callEach e callOf next rows).on s = (sweep.result, { s with
      rows := done.foldl (fun t a => change a t) s.rows, noted := s.noted ++ done.flatMap notes,
      engine := sweep.engine, sent := s.sent ++ sweep.sent,
      log := s.log ++ Desk.exchangesLog lines Desk.noLines sweep.sent }) := by
  -- Each call leaves another session to the rows after it.
  induction rows generalizing s with
  | nil => simp [callEach, sendWhileOk, Sweep.result, reached, Desk.exchangesLog]
  | cons a rows ih =>
    have hrows := fun b hb => hpair b (List.mem_cons_of_mem a hb)
    have ha := hpair a List.mem_cons_self
    have hcall := on_call e (callOf a) s
    simp only [callEach, List.map_cons, sendWhileOk]
    cases hreply : (e s.engine (callOf a)).1.outcome (callOf a) with
    | error f =>
      have hfails : (Exchange.mk (callOf a) (e s.engine (callOf a)).1).succeeds = false :=
        not_succeeds_of_outcome hreply
      rw [hreply] at hcall
      rw [on_bind_of_error hcall]
      simp [Sweep.result, reached, hfails, called, Desk.exchangesLog, ha, Desk.noLines]
    | ok body =>
      have hsucceeds : (Exchange.mk (callOf a) (e s.engine (callOf a)).1).succeeds = true :=
        Reply.outcome_isOk_iff.1 ⟨body, hreply⟩
      rw [hreply] at hcall
      rw [on_bind_of_ok hcall, on_bind_of_ok (hnext a _), ih hrows]
      simp [called, Sweep.result, reached, hsucceeds, Desk.exchangesLog, ha, List.append_assoc]

theorem on_callEach_of_ok {s : Session σ}
    (hok : (sendWhileOk e s.engine (rows.map callOf)).failure = none) :
    (callEach e callOf next rows).on s = (.ok (), { s with
      rows := rows.foldl (fun t a => change a t) s.rows, noted := s.noted ++ rows.flatMap notes,
      engine := (sendWhileOk e s.engine (rows.map callOf)).engine,
      sent := s.sent ++ (sendWhileOk e s.engine (rows.map callOf)).sent,
      log := s.log ++ Desk.exchangesLog lines Desk.noLines
        (sendWhileOk e s.engine (rows.map callOf)).sent }) := by
  rw [on_callEach e change notes lines hpair hnext s, reached_of_ok hok, Sweep.result, hok]

theorem on_callEach_of_failure {s : Session σ} {f : Failure}
    (hfails : (sendWhileOk e s.engine (rows.map callOf)).failure = some f) :
    ∃ changed, (callEach e callOf next rows).on s = (.error f, { s with
      rows := changed,
      noted := s.noted ++
        (reached rows (sendWhileOk e s.engine (rows.map callOf)).sent).flatMap notes,
      engine := (sendWhileOk e s.engine (rows.map callOf)).engine,
      sent := s.sent ++ (sendWhileOk e s.engine (rows.map callOf)).sent,
      log := s.log ++ Desk.exchangesLog lines Desk.noLines
        (sendWhileOk e s.engine (rows.map callOf)).sent }) := by
  have hloop := on_callEach e change notes lines hpair hnext s
  simp only [Sweep.result, hfails] at hloop
  exact ⟨_, hloop⟩

end Loops

theorem on_undo (e : Behaviour σ) (id : Int) (ws : List Int) (s : Session σ) :
    let sends := sendAll e s.engine (ws.map fun w => .deactivate w id)
    (undo e id ws).on s = (.ok (), { s with
      engine := sends.2, sent := s.sent ++ sends.1,
      log := s.log ++ Desk.exchangesLog undoneLines notUndoneLines sends.1 }) := by
  induction ws generalizing s with
  | nil => simp [undo, sendAll, Desk.exchangesLog]
  | cons w ws ih =>
    have hcall := on_call e (.deactivate w id) s
    simp only [undo, List.map_cons, sendAll]
    cases hreply : (e s.engine (.deactivate w id)).1.outcome (.deactivate w id) with
    | error f =>
      have hfails := not_succeeds_of_outcome (x := ⟨_, _⟩) hreply
      rw [hreply] at hcall
      have htry : (tryCatch (do
          call e (.deactivate w id)
          report (undoneLines w id)) fun _ => report (notUndoneLines w id) : Work σ Unit).on s =
          (report (notUndoneLines w id)).on (called e (.deactivate w id) s) := by
        rw [on_tryCatch, on_bind_of_error hcall]
      rw [on_bind_of_ok (htry.trans (on_report _ _)), ih]
      simp [called, Desk.exchangesLog, hfails, Call.pair?, List.append_assoc]
    | ok body =>
      have hsucceeds := Reply.outcome_isOk_iff.1 ⟨body, hreply⟩
      have hexchange : (Exchange.mk (.deactivate w id)
        (e s.engine (.deactivate w id)).1).succeeds = true := hsucceeds
      rw [hreply] at hcall
      have htry : (tryCatch (do
          call e (.deactivate w id)
          report (undoneLines w id)) fun _ => report (notUndoneLines w id) : Work σ Unit).on s =
          (report (undoneLines w id)).on (called e (.deactivate w id) s) := by
        rw [on_tryCatch, on_bind_of_ok hcall]
        rfl
      rw [on_bind_of_ok (htry.trans (on_report _ _)), ih]
      simp [called, Desk.exchangesLog, hexchange, Call.pair?, List.append_assoc]

section Halt

variable (e : Behaviour σ) {a : Assignment} {s : Session σ}

theorem on_halt_of_stopped (s : Session σ) (h : a.running = false) :
    (halt e a).on s = (.ok (), s) := by
  simp [halt, h]

theorem on_halt_of_error {f : Failure} (h : a.running = true)
    (hreply : (e s.engine a.stopCall).1.outcome a.stopCall = .error f) :
    (halt e a).on s = (.error f, called e a.stopCall s) := by
  have hcall := on_call e a.stopCall s
  rw [hreply] at hcall
  rw [halt, if_pos h, on_bind_of_error hcall]

theorem on_halt_of_ok {body : Json} (h : a.running = true)
    (hreply : (e s.engine a.stopCall).1.outcome a.stopCall = .ok body) :
    (halt e a).on s = (.ok (), { called e a.stopCall s with
      log := (called e a.stopCall s).log ++ haltedLines a.walletId a.strategyId }) := by
  have hcall := on_call e a.stopCall s
  rw [hreply] at hcall
  rw [halt, if_pos h, on_bind_of_ok hcall, on_report]

end Halt

theorem on_refresh {s : Session σ} (h : s.flaw = none) (id : Int) :
    (refresh id).on s = (.ok (), { s with rows := s.rows.refreshActive id }) := by
  have hrunning : (isRunning id).on s = (.ok (s.rows.hasRunning id), s) := by
    rw [isRunning, on_bind_of_ok (on_flush h), on_query]
  rw [refresh, on_bind_of_ok hrunning, on_change]
  rfl

theorem on_refreshEach {s : Session σ} (h : s.flaw = none) (ids : List Int) :
    (refreshEach ids).on s =
      (.ok (), { s with rows := ids.foldl Store.refreshActive s.rows }) := by
  induction ids generalizing s with
  | nil => rfl
  | cons id ids ih =>
    rw [refreshEach, on_bind_of_ok (on_refresh h id)]
    exact ih h

theorem on_strategy (id : Int) (s : Session σ) :
    (strategy id).on s = (s.rows.findStrategy id, s) := by
  rw [strategy, on_bind_of_ok (on_query s _), on_orFail]

theorem on_wallet (id : Int) (s : Session σ) : (wallet id).on s = (s.rows.findWallet id, s) := by
  rw [wallet, on_bind_of_ok (on_query s _), on_orFail]

theorem on_save (row : Except Crash α) (place : α → Store → Store) {s : Session σ}
    (h : s.flaw = none) :
    (save row place).on s =
      match row with
      | .ok a => (.ok a, { s with rows := place a s.rows, kept := place a s.rows })
      | .error c => (.error (.crash c), { s with flaw := some c }) := by
  cases row with
  | ok a =>
    have hstaged : (stage fun s => (Except.ok a : Except Crash α).map fun a => place a s).on s =
        (.ok (), { s with rows := place a s.rows }) := rfl
    rw [save, on_bind_of_ok hstaged,
      on_bind_of_ok (on_commit (s := { s with rows := place a s.rows }) h), on_orCrash]
    rfl
  | error c =>
    have hstaged : (stage fun s => (Except.error c : Except Crash α).map fun a => place a s).on s =
        (.ok (), { s with flaw := some c }) := by
      rw [stage, on_modify]
      simp [Except.map, h]
    rw [save, on_bind_of_ok hstaged]
    rfl

end Work

/-! ### Sessions of operations -/

namespace Store

/-- Rows are changed one by one, where what becomes of one is no row that is still to be changed. -/
theorem foldl_onRow {f : Assignment → Assignment} (rows : List Assignment)
    (hout : ∀ a ∈ rows, f a ∉ rows) (s : Store) :
    rows.foldl (fun t a => t.onRow a f) s =
      { s with assignments := s.assignments.map fun b => if b ∈ rows then f b else b } := by
  induction rows generalizing s with
  | nil => simp
  | cons a rows ih =>
    -- A row is found by what it is, so no change may make it one of those still to come.
    have hrows : ∀ b ∈ rows, f b ∉ rows := fun b hb hfb =>
      hout b (List.mem_cons_of_mem a hb) (List.mem_cons_of_mem a hfb)
    rw [List.foldl_cons, ih hrows]
    simp only [onRow, List.map_map, mk.injEq, true_and]
    refine List.map_congr_left fun b _ => ?_
    by_cases hb : b = a
    · subst hb
      have hfb : f b ∉ rows := fun h => hout b List.mem_cons_self (List.mem_cons_of_mem b h)
      simp [hfb]
    · simp [hb]

theorem foldl_start (s : Store) (id : Int) :
    (s.stoppedOf id).foldl (fun t a => t.onRow a .start) s =
      s.onAssignmentsOf id fun a => if a.running then a else a.start := by
  rw [foldl_onRow]
  · simp only [onAssignmentsOf, mk.injEq, true_and]
    refine List.map_congr_left fun b hb => ?_
    by_cases hid : b.strategyId = id <;> cases hrunning : b.running <;>
      simp [stoppedOf, ofStrategy, hb, hid, hrunning]
  · intro a _ ha
    simp [stoppedOf, Assignment.start] at ha

theorem foldl_stop (s : Store) (id : Int) :
    (s.runningOf id).foldl (fun t a => t.onRow a .stop) s =
      s.onAssignmentsOf id fun a => if a.running then a.stop else a := by
  rw [foldl_onRow]
  · simp only [onAssignmentsOf, mk.injEq, true_and]
    refine List.map_congr_left fun b hb => ?_
    by_cases hid : b.strategyId = id <;> cases hrunning : b.running <;>
      simp [runningOf, ofStrategy, hb, hid, hrunning]
  · intro a _ ha
    simp [runningOf, Assignment.stop] at ha

end Store

namespace Desk

variable (e : Behaviour σ) (d : Desk σ)

theorem session_of_ok {w : Work σ α} {a : α} {t : Session σ} (h : w.on d.opened = (.ok a, t))
    (hflaw : t.flaw = none) :
    d.session w = ⟨.ok a, { d with store := t.rows, engine := t.engine, ids := t.ids }, t.sent,
      t.log⟩ := by
  rw [session, Work.on_transaction _ _ (by rw [h]; exact hflaw), h]

theorem session_of_error {w : Work σ α} {f : Failure} {t : Session σ}
    (h : w.on d.opened = (.error f, t)) :
    d.session w = ⟨.error f, { d with store := t.kept, engine := t.engine, ids := t.ids }, t.sent,
      t.log⟩ := by
  rw [session, Work.transaction, Work.on_tryCatch, Work.on_bind_of_error h]
  rfl

theorem session_map (g : α → β) (w : Work σ α) : d.session (g <$> w) = (d.session w).map g := by
  have htransaction : (Work.transaction (g <$> w)).on d.opened =
      (((Work.transaction w).on d.opened).1.map g, ((Work.transaction w).on d.opened).2) := by
    simp only [Work.transaction, Work.on_tryCatch, Work.on_bind, Work.on_map]
    rcases w.on d.opened with ⟨f | a, t⟩
    · rfl
    · simp only [Except.map]
      rcases Work.commit.on t with ⟨f | u, t⟩ <;> rfl
  rw [session, htransaction]
  rfl

/-- A session that sends calls and then works on the tables, if every call was answered. -/
theorem session_callEach (rest : Unit → Work σ α) {callOf : Assignment → Call}
    {rows : List Assignment} {result : α} {store : Store} {last : Log} {w : Work σ α}
    (hw : w.on d.opened = (Work.callEach e callOf (fun _ => return ()) rows >>= rest).on d.opened)
    (hpair : ∀ a ∈ rows, (callOf a).pair? = some (a.walletId, a.strategyId))
    (hrest : ∀ t : Session σ, t.flaw = none → t.rows = d.store → ∃ kept,
      (rest ()).on t = (.ok result, { t with kept, rows := store, log := t.log ++ last })) :
    d.session w = d.sweeping e (rows.map callOf) noLines result store last := by
  have hnext (a : Assignment) (t : Session σ) :
      (pure () : Work σ Unit).on t = (.ok (), { t with
        rows := t.rows, noted := t.noted ++ [],
        log := t.log ++ noLines a.walletId a.strategyId }) := by
    rw [Work.on_pure, noLines, List.append_nil, List.append_nil]
  simp only [sweeping]
  cases hf : (sendWhileOk e d.engine (rows.map callOf)).failure with
  | some f =>
    obtain ⟨changed, hloop⟩ := Work.on_callEach_of_failure e (fun _ s => s) (fun _ => []) noLines
      hpair hnext (s := d.opened) hf
    rw [session_of_error d (hw.trans (Work.on_bind_of_error hloop))]
    rfl
  | none =>
    have hloop := Work.on_callEach_of_ok e (fun _ s => s) (fun _ => []) noLines hpair hnext
      (s := d.opened) hf
    rw [List.foldl_fixed] at hloop
    obtain ⟨kept, hdone⟩ := hrest ((Work.callEach e callOf (fun _ => return ()) rows).on d.opened).2
      (by rw [hloop]; rfl) (by rw [hloop]; rfl)
    rw [hloop] at hdone
    rw [session_of_ok d (hw.trans ((Work.on_bind_of_ok hloop).trans hdone)) rfl]
    rfl

/-! ### Halting and removing -/

theorem on_strategy_opened {id : Int} {x : Except Failure Strategy}
    (h : d.store.findStrategy id = x) : (Work.strategy id).on d.opened = (x, d.opened) := by
  rw [Work.on_strategy, ← h]
  rfl

theorem on_wallet_opened {id : Int} {x : Except Failure Wallet}
    (h : d.store.findWallet id = x) : (Work.wallet id).on d.opened = (x, d.opened) := by
  rw [Work.on_wallet, ← h]
  rfl

theorem session_haltStrategy (id : Int) :
    d.session (Work.haltStrategy e id) = d.haltStrategy e id := by
  rw [haltStrategy]
  cases hr : d.store.findStrategy id with
  | error f => exact session_of_error d (Work.on_bind_of_error (on_strategy_opened d hr))
  | ok r =>
    refine session_callEach e d pure ?_ (fun _ _ => rfl) fun t _ ht => ⟨t.kept, ?_⟩
    · rw [Work.haltStrategy, Work.on_bind_of_ok (on_strategy_opened d hr), bind_pure]
      rfl
    · rw [Work.on_pure, ← ht, List.append_nil]

theorem session_haltWallet (id : Int) : d.session (Work.haltWallet e id) = d.haltWallet e id := by
  rw [haltWallet]
  cases hw : d.store.findWallet id with
  | error f => exact session_of_error d (Work.on_bind_of_error (on_wallet_opened d hw))
  | ok w =>
    refine session_callEach e d pure ?_ (fun _ _ => rfl) fun t _ ht => ⟨t.kept, ?_⟩
    · rw [Work.haltWallet, Work.on_bind_of_ok (on_wallet_opened d hw), bind_pure]
      rfl
    · rw [Work.on_pure, ← ht, List.append_nil]

theorem session_kill (id : Int) : d.session (Work.kill e id) = d.kill e id := by
  rw [kill]
  cases hr : d.store.findStrategy id with
  | error f => exact session_of_error d (Work.on_bind_of_error (on_strategy_opened d hr))
  | ok r =>
    refine session_callEach e d (fun _ => Work.report [killedLine id]) ?_
      (fun _ _ => rfl) fun t _ ht => ⟨t.kept, ?_⟩
    · rw [Work.kill, Work.on_bind_of_ok (on_strategy_opened d hr)]
      rfl
    · rw [Work.on_report, ← ht]

theorem session_unkill (id : Int) : d.session (Work.unkill e id) = d.unkill e id := by
  rw [unkill]
  cases hr : d.store.findStrategy id with
  | error f => exact session_of_error d (Work.on_bind_of_error (on_strategy_opened d hr))
  | ok r =>
    refine session_callEach e d (fun _ => Work.report [releasedLine id]) ?_
      (fun _ _ => rfl) fun t _ ht => ⟨t.kept, ?_⟩
    · rw [Work.unkill, Work.on_bind_of_ok (on_strategy_opened d hr)]
      rfl
    · rw [Work.on_report, ← ht]

theorem session_deleteStrategy (id : Int) :
    d.session (Work.deleteStrategy e id) = d.deleteStrategy e id := by
  rw [deleteStrategy]
  cases hr : d.store.findStrategy id with
  | error f =>
    exact session_of_error d (Work.on_bind_of_error
      (Work.on_bind_of_error (on_strategy_opened d hr)))
  | ok r =>
    refine session_callEach e d (fun _ => do
      Work.change fun s => s.dropStrategy id
      Work.commit
      Work.report [deletedStrategyLine id]) ?_ (fun _ _ => rfl)
      fun t hflaw ht => ⟨d.store.dropStrategy id, ?_⟩
    · rw [Work.deleteStrategy, Work.haltStrategy, bind_assoc,
        Work.on_bind_of_ok (on_strategy_opened d hr)]
      rfl
    · rw [Work.on_bind_of_ok (Work.on_change t _), Work.on_bind_of_ok (Work.on_commit
        (s := { t with rows := t.rows.dropStrategy id }) hflaw), Work.on_report, ht]

theorem session_deleteWallet (id : Int) :
    d.session (Work.deleteWallet e id) = d.deleteWallet e id := by
  rw [deleteWallet]
  cases hw : d.store.findWallet id with
  | error f => exact session_of_error d (Work.on_bind_of_error (on_wallet_opened d hw))
  | ok w =>
    have hwallet := on_wallet_opened d hw
    cases hidle : w.isDeploying with
    | true =>
      have hon : (Work.deleteWallet e id).on d.opened =
          (.error (.walletDeploying id), d.opened) := by
        rw [Work.deleteWallet, Work.on_bind_of_ok hwallet, hidle]
        rfl
      rw [session_of_error d hon]
      simp only [hidle]
      rfl
    | false =>
      simp only [hidle, Bool.false_eq_true, ↓reduceIte]
      refine session_callEach e d (fun _ => do
        let ids ← Work.query fun s => (s.ofWallet id).map Assignment.strategyId
        Work.change fun s => s.dropWallet id
        Work.flush
        Work.refreshEach ids
        Work.commit
        Work.report [deletedWalletLine id]) ?_ (fun _ _ => rfl)
        fun t hflaw ht => ⟨d.store.withoutWallet id, ?_⟩
      · rw [Work.deleteWallet, Work.on_bind_of_ok hwallet, hidle]
        simp only [Bool.false_eq_true, ↓reduceIte]
        rw [Work.haltWallet, bind_assoc, Work.on_bind_of_ok hwallet]
        rfl
      · simp [Work.on_bind, Work.on_flush, Work.on_refreshEach, Work.on_commit, hflaw, ht,
          Store.withoutWallet]

theorem session_unassignStrategy (walletId strategyId : Int) :
    d.session (Work.unassignStrategy e walletId strategyId) =
      d.unassignStrategy e walletId strategyId := by
  rw [unassignStrategy]
  have hrow := Work.on_query d.opened fun s => s.findAssignment walletId strategyId
  cases ha : d.store.findAssignment walletId strategyId with
  | error f =>
    have hon : (Work.unassignStrategy e walletId strategyId).on d.opened =
        (.error f, d.opened) := by
      simp [Work.unassignStrategy, Work.on_bind, opened, ha]
    exact session_of_error d hon
  | ok a =>
    have hpair := (Store.mem_of_assignment? (Store.assignment?_of_find ha)).2
    simp only [Assignment.pair, Prod.mk.injEq] at hpair
    have hrest : ∀ t : Session σ, t.flaw = none → t.rows = d.store →
        (do
          Work.change fun s => s.dropAssignment a.id
          Work.flush
          Work.refresh strategyId
          Work.commit
          Work.report [unassignedLine walletId strategyId]).on t =
        (.ok (), { t with
          kept := d.store.withoutAssignment a, rows := d.store.withoutAssignment a,
          log := t.log ++ [unassignedLine walletId strategyId] }) := by
      intro t hflaw ht
      simp [Work.on_bind, Work.on_flush, Work.on_refresh, Work.on_commit, hflaw, ht, hpair,
        Store.withoutAssignment]
    have hon : (Work.unassignStrategy e walletId strategyId).on d.opened =
        (do
          Work.halt e a
          Work.change fun s => s.dropAssignment a.id
          Work.flush
          Work.refresh strategyId
          Work.commit
          Work.report [unassignedLine walletId strategyId]).on d.opened := by
      simp [Work.unassignStrategy, Work.on_bind, opened, ha]
    cases hrunning : a.running with
    | false =>
      have hhalt := Work.on_halt_of_stopped e d.opened hrunning
      rw [session_of_ok d (hon.trans ((Work.on_bind_of_ok hhalt).trans (hrest _ rfl rfl))) rfl]
      simp only [hrunning]
      rfl
    | true =>
      have hsides : a.stopCall.pair? = some (a.walletId, a.strategyId) := rfl
      simp only [hrunning, sweeping, sendWhileOk, ↓reduceIte]
      cases hreply : (e d.engine a.stopCall).1.outcome a.stopCall with
      | error f =>
        have hhalt := Work.on_halt_of_error e (s := d.opened) hrunning hreply
        have hfails : (Exchange.mk a.stopCall (e d.engine a.stopCall).1).succeeds = false :=
          not_succeeds_of_outcome hreply
        rw [session_of_error d (hon.trans (Work.on_bind_of_error hhalt))]
        simp [Work.called, opened, exchangesLog, hfails, hsides, noLines]
      | ok body =>
        have hhalt := Work.on_halt_of_ok e (s := d.opened) hrunning hreply
        have hsucceeds : (Exchange.mk a.stopCall (e d.engine a.stopCall).1).succeeds = true :=
          Reply.outcome_isOk_iff.1 ⟨body, hreply⟩
        rw [session_of_ok d (hon.trans ((Work.on_bind_of_ok hhalt).trans (hrest _ rfl rfl))) rfl]
        simp [Work.called, opened, exchangesLog, hsucceeds, hsides]

/-! ### Starting and stopping -/

theorem on_markStopped (a : Assignment) (t : Session σ) :
    (Work.markStopped a).on t = (.ok (), { t with
      rows := t.rows.onRow a .stop, noted := t.noted ++ [a.walletId],
      log := t.log ++ stoppedLines a.walletId a.strategyId }) := by
  simp [Work.markStopped, Work.on_bind]

theorem on_markStarted (a : Assignment) (t : Session σ) :
    (Work.markStarted a).on t = (.ok (), { t with
      rows := t.rows.onRow a .start, noted := t.noted ++ [a.walletId],
      log := t.log ++ startedLines a.walletId a.strategyId }) := by
  simp [Work.markStarted, Work.on_bind]

theorem session_deactivate (id : Int) : d.session (Work.deactivate e id) = d.deactivate e id := by
  rw [deactivate]
  cases hr : d.store.findStrategy id with
  | error f => exact session_of_error d (Work.on_bind_of_error (on_strategy_opened d hr))
  | ok r =>
    let changes : Work σ Unit := do
      Work.callEach e Assignment.stopCall Work.markStopped (d.store.runningOf id)
      Work.change fun s => s.onStrategy id fun r => { r with active := false }
    have hon : (Work.deactivate e id).on d.opened =
        (Work.transaction changes >>= fun _ => do return (← get).noted).on d.opened := by
      rw [Work.deactivate, Work.on_bind_of_ok (on_strategy_opened d hr)]
      rfl
    simp only [sweeping]
    cases hf : (sendWhileOk e d.engine
      ((d.store.runningOf id).map Assignment.stopCall)).failure with
    | some f =>
      obtain ⟨changed, hloop⟩ := Work.on_callEach_of_failure e (fun a s => s.onRow a .stop)
        (fun a => [a.walletId]) stoppedLines (fun _ _ => rfl) on_markStopped (s := d.opened) hf
      have hchanges := Work.on_bind_of_error (f := fun _ => Work.change fun s =>
        s.onStrategy id fun r => { r with active := false }) hloop
      have hdone := Work.on_transaction changes d.opened (by rw [hchanges]; rfl)
      rw [hchanges] at hdone
      rw [session_of_error d (hon.trans (Work.on_bind_of_error hdone))]
      rfl
    | none =>
      have hloop := Work.on_callEach_of_ok e (fun a s => s.onRow a .stop)
        (fun a => [a.walletId]) stoppedLines (fun _ _ => rfl) on_markStopped (s := d.opened) hf
      have hchanges := (Work.on_bind_of_ok (f := fun _ => Work.change fun s =>
        s.onStrategy id fun r => { r with active := false }) hloop).trans (Work.on_change _ _)
      have hdone := Work.on_transaction changes d.opened (by rw [hchanges]; rfl)
      rw [hchanges] at hdone
      rw [session_of_ok d (hon.trans (Work.on_bind_of_ok hdone)) rfl]
      simp [opened, Store.stop, ← Store.foldl_stop, List.map_eq_flatMap]

theorem undoing_sweep {s : σ} {callOf : Assignment → Call} {rows : List Assignment} {id : Int}
    (hpair : ∀ a ∈ rows, (callOf a).pair? = some (a.walletId, id)) :
    undoing (sendWhileOk e s (rows.map callOf)).sent =
      (Work.reached rows (sendWhileOk e s (rows.map callOf)).sent).map
        fun a => .deactivate a.walletId id := by
  induction rows generalizing s with
  | nil => rfl
  | cons a rows ih =>
    have ha := hpair a List.mem_cons_self
    have hrows := fun b hb => hpair b (List.mem_cons_of_mem a hb)
    simp only [List.map_cons, sendWhileOk]
    cases hreply : (e s (callOf a)).1.outcome (callOf a) with
    | error f =>
      have hfails : (Exchange.mk (callOf a) (e s (callOf a)).1).succeeds = false :=
        not_succeeds_of_outcome hreply
      simp [undoing, Work.reached, hfails]
    | ok body =>
      have hsucceeds : (Exchange.mk (callOf a) (e s (callOf a)).1).succeeds = true :=
        Reply.outcome_isOk_iff.1 ⟨body, hreply⟩
      have hrest := ih (s := (e s (callOf a)).2) hrows
      simp only [undoing, Work.reached] at hrest ⊢
      simp [hsucceeds, ha, hrest]

theorem session_activate (id : Int) : d.session (Work.activate e id) = d.activate e id := by
  rw [activate]
  cases hr : d.store.findStrategy id with
  | error f => exact session_of_error d (Work.on_bind_of_error (on_strategy_opened d hr))
  | ok r =>
    have hid : r.id = id := (Store.mem_of_strategy? (Store.strategy?_of_find hr)).2
    have hwallet : ∀ a ∈ d.store.stoppedOf id,
        (d.store.activation r a).pair? = some (a.walletId, id) := by
      intro a _
      rw [Store.activation, Call.pair?, hid]
    have hpair : ∀ a ∈ d.store.stoppedOf id,
        (d.store.activation r a).pair? = some (a.walletId, a.strategyId) := by
      intro a ha
      rw [hwallet a ha]
      simp only [Store.stoppedOf, Store.ofStrategy, List.mem_filter, beq_iff_eq] at ha
      rw [ha.1.2]
    simp only
    cases hready : (d.store.stoppedOf id).find? fun a => !d.store.isReady a with
    | some a =>
      have hon : (Work.activate e id).on d.opened =
          (.error (.walletNotDeployed a.walletId), d.opened) := by
        rw [Work.activate, Work.on_bind_of_ok (on_strategy_opened d hr),
          Work.on_bind_of_ok (Work.on_query _ _)]
        simp only [opened, hready]
        rfl
      rw [session_of_error d hon]
      rfl
    | none =>
      let changes : Work σ Unit := do
        Work.callEach e (d.store.activation r) Work.markStarted (d.store.stoppedOf id)
        Work.refresh id
      let takeBack (f : Failure) : Work σ Unit := do
        Work.undo e id (← get).noted
        throw f
      have hon : (Work.activate e id).on d.opened =
          (tryCatch (Work.transaction changes) takeBack >>= fun _ => do return (← get).noted).on
            d.opened := by
        rw [Work.activate, Work.on_bind_of_ok (on_strategy_opened d hr),
          Work.on_bind_of_ok (Work.on_query _ _)]
        simp only [opened, hready]
        rfl
      cases hf : (sendWhileOk e d.engine
        ((d.store.stoppedOf id).map (d.store.activation r))).failure with
      | some f =>
        obtain ⟨changed, hloop⟩ := Work.on_callEach_of_failure e (fun a s => s.onRow a .start)
          (fun a => [a.walletId]) startedLines hpair on_markStarted (s := d.opened) hf
        have hchanges : changes.on d.opened = _ := Work.on_bind_of_error hloop
        have hdone := Work.on_transaction changes d.opened (by rw [hchanges]; rfl)
        rw [hchanges] at hdone
        -- The rollback leaves the notes, so what is taken back is what the loop had reached.
        have htry := Work.on_tryCatch (Work.transaction changes) takeBack d.opened
        rw [hdone] at htry
        simp only [takeBack, Work.on_bind, Work.on_get, Work.on_undo, Work.on_throw] at htry
        rw [session_of_error d (hon.trans (Work.on_bind_of_error htry))]
        have hundone := undoing_sweep e (s := d.engine) hwallet
        simp [opened, hundone, ← List.map_eq_flatMap, Function.comp_def]
      | none =>
        have hloop := Work.on_callEach_of_ok e (fun a s => s.onRow a .start)
          (fun a => [a.walletId]) startedLines hpair on_markStarted (s := d.opened) hf
        have hchanges : changes.on d.opened = _ :=
          (Work.on_bind_of_ok hloop).trans (Work.on_refresh rfl id)
        have hdone := Work.on_transaction changes d.opened (by rw [hchanges]; rfl)
        rw [hchanges] at hdone
        have htry := Work.on_tryCatch (Work.transaction changes) takeBack d.opened
        rw [hdone] at htry
        rw [session_of_ok d (hon.trans (Work.on_bind_of_ok htry)) rfl]
        simp [opened, Store.start, ← Store.foldl_start, List.map_eq_flatMap]

theorem session_hasRunning (id : Int) : d.session (Work.hasRunning id) = d.hasRunning id := by
  rw [hasRunning, Work.hasRunning]
  split
  · have hon : (Work.isRunning id).on d.opened = (.ok (d.store.hasRunning id), d.opened) := by
      rw [Work.isRunning, Work.on_bind_of_ok (Work.on_flush rfl), Work.on_query]
      rfl
    exact session_of_ok d hon rfl
  · exact session_of_error d (Work.on_throw _ _)

/-! ### Strategies, assignments and wallets -/

theorem session_getStrategy (id : Int) : d.session (Work.getStrategy id) = d.getStrategy id := by
  rw [getStrategy, Work.getStrategy]
  split
  · exact session_of_ok d (Work.on_query _ _) rfl
  · exact session_of_error d (Work.on_throw _ _)

theorem on_judge (g : Json) (t : Session σ) :
    (Work.judge g).on t =
      match Graph.accept t.room t.ids g with
      | .ok a => (.ok a, { t with ids := a.next, log := t.log ++ Graph.acceptLog t.room t.ids g })
      | .error f => (.error f, { t with log := t.log ++ Graph.acceptLog t.room t.ids g }) := by
  rw [Work.judge, Work.on_bind_of_ok (Work.on_get t), Work.on_bind_of_ok (Work.on_report t _)]
  cases h : Graph.accept t.room t.ids g with
  | error f => rfl
  | ok a => rfl

theorem on_judgeGiven (g : Option Json) (t : Session σ) :
    (Work.judgeGiven g).on t =
      match acceptGiven t.room t.ids g with
      | .ok a => (.ok a, { t with
          ids := (a.map Accepted.next).getD t.ids, log := t.log ++ givenLog t.room t.ids g })
      | .error f => (.error f, { t with log := t.log ++ givenLog t.room t.ids g }) := by
  cases g with
  | none => simp [Work.judgeGiven, acceptGiven, givenLog]
  | some g =>
    rw [Work.judgeGiven, Work.on_bind, on_judge]
    cases h : Graph.accept t.room t.ids g with
    | error f => simp [acceptGiven, givenLog, h, Except.map]
    | ok a => simp [acceptGiven, givenLog, h, Except.map]

theorem session_createStrategy (userId : Option Int) (name description : Option Text) (g : Json) :
    d.session (Work.createStrategy userId name description g) =
      d.createStrategy userId name description g := by
  rw [createStrategy]
  cases ha : Graph.accept d.room d.ids g with
  | error f =>
    have hon : (Work.createStrategy userId name description g).on d.opened =
        (.error f, { d.opened with log := Graph.acceptLog d.room d.ids g }) := by
      simp [Work.createStrategy, Work.on_bind, on_judge, opened, ha]
    exact session_of_error d hon
  | ok a =>
    simp only
    cases hr : newStrategy d.store userId name description a with
    | error c =>
      have hon : (Work.createStrategy userId name description g).on d.opened =
          (.error (.crash c), { d.opened with
            flaw := some c, ids := a.next, log := Graph.acceptLog d.room d.ids g }) := by
        simp [Work.createStrategy, Work.on_bind, on_judge, opened, ha, Work.on_save, hr]
      exact session_of_error d hon
    | ok r =>
      have hon : (Work.createStrategy userId name description g).on d.opened =
          (.ok r, { d.opened with
            rows := d.store.addStrategy r, kept := d.store.addStrategy r, ids := a.next,
            log := Graph.acceptLog d.room d.ids g ++ [createdLine r] }) := by
        simp [Work.createStrategy, Work.on_bind, on_judge, opened, ha, Except.map, Work.on_save, hr]
      exact session_of_ok d hon rfl

theorem session_updateStrategy (id : Int) (name description : Option Text) (g : Option Json) :
    d.session (Work.updateStrategy id name description g) =
      d.updateStrategy id name description g := by
  rw [updateStrategy]
  cases hr : d.store.findStrategy id with
  | error f => exact session_of_error d (Work.on_bind_of_error (on_strategy_opened d hr))
  | ok r =>
    simp only
    cases ha : acceptGiven d.room d.ids g with
    | error f =>
      have hon : (Work.updateStrategy id name description g).on d.opened =
          (.error f, { d.opened with log := givenLog d.room d.ids g }) := by
        simp [Work.updateStrategy, Work.on_bind, Work.on_strategy, on_judgeGiven, opened, hr, ha]
      exact session_of_error d hon
    | ok a =>
      simp only
      cases hnew : revised r name description a with
      | error c =>
        have hon : (Work.updateStrategy id name description g).on d.opened =
            (.error (.crash c), { d.opened with
              flaw := some c, ids := (a.map Accepted.next).getD d.ids,
              log := givenLog d.room d.ids g }) := by
          simp [Work.updateStrategy, Work.on_bind, Work.on_strategy, on_judgeGiven, opened, hr, ha,
            Work.on_save, hnew]
        exact session_of_error d hon
      | ok new =>
        have hon : (Work.updateStrategy id name description g).on d.opened =
            (.ok new, { d.opened with
              rows := d.store.onStrategy r.id fun _ => keptRow r new,
              kept := d.store.onStrategy r.id fun _ => keptRow r new,
              ids := (a.map Accepted.next).getD d.ids, log := givenLog d.room d.ids g }) := by
          simp [Work.updateStrategy, Work.on_bind, Work.on_strategy, on_judgeGiven, opened, hr, ha,
            Work.on_save, hnew]
        exact session_of_ok d hon rfl

theorem session_addWallet (status safeAddress privateKey : Option String) :
    d.session (Work.addWallet status safeAddress privateKey) =
      d.addWallet status safeAddress privateKey := by
  rw [addWallet]
  cases htaken : d.store.isTaken safeAddress with
  | true =>
    have hon : (Work.addWallet status safeAddress privateKey).on d.opened =
        (.error (.crash .brokenRow), { d.opened with flaw := some .brokenRow }) := by
      simp [Work.addWallet, Work.on_bind, opened, Work.on_save, Store.newWallet, htaken, Except.map]
    exact session_of_error d hon
  | false =>
    let w : Wallet := ⟨d.store.nextWalletId, status.getD Wallet.pending, safeAddress,
      privateKey.getD ""⟩
    have hon : (Work.addWallet status safeAddress privateKey).on d.opened =
        (.ok w.id, { d.opened with
          rows := d.store.addWallet w, kept := d.store.addWallet w }) := by
      simp [Work.addWallet, Work.on_bind, opened, Work.on_save, Store.newWallet, htaken, Except.map,
        w]
    exact session_of_ok d hon rfl

theorem session_of_flaw {w : Work σ α} {a : α} {t : Session σ} {c : Crash}
    (h : w.on d.opened = (.ok a, t)) (hflaw : t.flaw = some c) :
    d.session w = ⟨.error (.crash c), { d with store := t.kept, engine := t.engine, ids := t.ids },
      t.sent, t.log⟩ := by
  have hcommit : (Work.commit (σ := σ)).on t = (.error (.crash c), t) := by
    rw [Work.commit, Work.flush, bind_assoc, Work.on_bind_of_ok (Work.on_get t), hflaw]
    rfl
  rw [session, Work.transaction, Work.on_tryCatch, Work.on_bind_of_ok h,
    Work.on_bind_of_error hcommit]
  rfl

theorem session_setWalletStatus (id : Int) (status : Option String) :
    d.session (Work.setWalletStatus id status) = d.setWalletStatus id status := by
  unfold setWalletStatus
  have hquery : (Work.query fun s => s.wallet? id).on d.opened =
      (.ok (d.store.wallet? id), d.opened) :=
    Work.on_query _ _
  cases hid : isStorable id with
  | false =>
    rw [Work.setWalletStatus, if_neg (by simp [hid])]
    exact session_of_error d (Work.on_throw _ _)
  | true =>
    simp only [Bool.not_true, Bool.false_eq_true, ↓reduceIte]
    cases hw : d.store.wallet? id with
    | none =>
      have hon : (Work.setWalletStatus id status).on d.opened = (.ok (), d.opened) := by
        simp [Work.setWalletStatus, hid, Work.on_bind, hquery, hw]
      exact session_of_ok d hon rfl
    | some w =>
      cases status with
      | none =>
        have hon : (Work.setWalletStatus id none).on d.opened =
            (.ok (), { d.opened with flaw := some .brokenRow }) := by
          simp [Work.setWalletStatus, hid, Work.on_bind, hw, Work.stage, opened]
        exact session_of_flaw d hon rfl
      | some status =>
        have hon : (Work.setWalletStatus id (some status)).on d.opened =
            (.ok (), { d.opened with rows := d.store.onWallet id fun w => { w with status } }) := by
          simp [Work.setWalletStatus, hid, Work.on_bind, hw, Work.stage, opened]
        exact session_of_ok d hon rfl

theorem setRow_setRow {a b : Assignment} (h : b.id = a.id) (s : Store) :
    Work.setRow b (Work.setRow a s) = Work.setRow b s := by
  simp only [Work.setRow, Store.onAssignment, List.map_map, Store.mk.injEq, true_and]
  refine List.map_congr_left fun c _ => ?_
  by_cases hc : c.id = a.id <;> simp [hc, h]

theorem setRow_addAssignment {a b : Assignment} {s : Store} (hnew : a.id = s.nextAssignmentId)
    (h : b.id = a.id) : Work.setRow b (s.addAssignment a) = s.addAssignment b := by
  simp only [Work.setRow, Store.onAssignment, Store.addAssignment, Store.mk.injEq, true_and,
    List.map_append, List.map_cons, List.map_nil, h, ↓reduceIte, List.append_cancel_right_eq]
  refine (List.map_congr_left fun c hc => if_neg ?_).trans (List.map_id _)
  have hlt : c.id < s.nextAssignmentId := lt_nextId (List.mem_map_of_mem hc)
  omega

theorem on_rowFor (walletId strategyId : Int) (t : Session σ) :
    let old := t.rows.assignment? walletId strategyId
    let a := old.getD (t.rows.blankAssignment walletId strategyId)
    ∃ rows, (Work.rowFor walletId strategyId old).on t =
        (.ok a, { t with
          rows, log := t.log ++ if old.isSome then [updatingLine walletId strategyId] else [] }) ∧
      ∀ b : Assignment, b.id = a.id → Work.setRow b rows = t.rows.place old b := by
  cases t.rows.assignment? walletId strategyId with
  | some a => exact ⟨t.rows, rfl, fun b _ => rfl⟩
  | none =>
    -- The new row is in the tables before it has its terms.
    refine ⟨t.rows.addAssignment (t.rows.blankAssignment walletId strategyId), ?_,
      fun b hb => setRow_addAssignment rfl hb⟩
    simp [Work.rowFor, Work.on_bind, Except.map]

theorem session_assignStrategy (walletId strategyId : Int) (r : AssignRequest) :
    d.session (Work.assignStrategy walletId strategyId r) =
      d.assignStrategy walletId strategyId r := by
  rw [assignStrategy]
  cases hw : d.store.findWallet walletId with
  | error f => exact session_of_error d (Work.on_bind_of_error (on_wallet_opened d hw))
  | ok w =>
    simp only
    cases hs : d.store.findStrategy strategyId with
    | error f =>
      have hon : (Work.assignStrategy walletId strategyId r).on d.opened =
          (.error f, d.opened) := by
        simp [Work.assignStrategy, Work.on_bind, Work.on_wallet, Work.on_strategy, opened, hw, hs]
      exact session_of_error d hon
    | ok s =>
      simp only
      cases hr : r.check with
      | error f =>
        have hon : (Work.assignStrategy walletId strategyId r).on d.opened =
            (.error f, d.opened) := by
          simp [Work.assignStrategy, Work.on_bind, Work.on_wallet, Work.on_strategy, opened, hw, hs,
            hr]
        exact session_of_error d hon
      | ok markets =>
        obtain ⟨rows, hrow, hplace⟩ := on_rowFor walletId strategyId d.opened
        simp only [opened, List.nil_append] at hrow hplace
        unfold assignPair
        obtain ⟨old, hold⟩ : ∃ old, d.store.assignment? walletId strategyId = old := ⟨_, rfl⟩
        obtain ⟨a, ha⟩ : ∃ a, old.getD (d.store.blankAssignment walletId strategyId) = a := ⟨_, rfl⟩
        obtain ⟨log, hlog⟩ : ∃ log,
          (if old.isSome then [updatingLine walletId strategyId] else []) = log := ⟨_, rfl⟩
        simp only [hold, ha, hlog] at hrow hplace ⊢
        cases hlimit : Limit.amount r.limit with
        | error c =>
          have hon : (Work.assignStrategy walletId strategyId r).on d.opened =
              (.error (.crash c), { d.opened with
                rows := Work.setRow { a with markets } rows, log }) := by
            simp [Work.assignStrategy, Work.on_bind, Work.on_wallet, Work.on_strategy, opened, hw,
              hs, hr, hold, hrow, hlimit, Except.mapError]
          rw [session_of_error d hon]
          simp [AssignRequest.row, hlimit]
          rfl
        | ok limit =>
          cases hpaper : r.paperFor old with
          | error c =>
            have hon : (Work.assignStrategy walletId strategyId r).on d.opened =
                (.error (.crash c), { d.opened with
                  rows := Work.setRow { a with markets, limit } rows, flaw := some c, log }) := by
              simp [Work.assignStrategy, Work.on_bind, Work.on_wallet, Work.on_strategy, opened, hw,
                hs, hr, hold, hrow, hlimit, hpaper, Work.on_save, setRow_setRow, Except.mapError,
                Except.map]
            rw [session_of_error d hon]
            simp [AssignRequest.row, hlimit, hpaper]
            rfl
          | ok paper =>
            have hon : (Work.assignStrategy walletId strategyId r).on d.opened =
                (.ok ⟨{ a with markets, limit, paper }, r.limit, r.echo⟩, { d.opened with
                  rows := Work.setRow { a with markets, limit, paper } rows
                  kept := Work.setRow { a with markets, limit, paper } rows, log }) := by
              simp [Work.assignStrategy, Work.on_bind, Work.on_wallet, Work.on_strategy, opened, hw,
                hs, hr, hold, hrow, hlimit, hpaper, Work.on_save, setRow_setRow, Except.mapError,
                Except.map]
            have hrows := hplace { a with markets, limit, paper } rfl
            rw [session_of_ok d hon rfl]
            simp [AssignRequest.row, hlimit, hpaper, ha, hrows]
            rfl

/-- The session of an operation comes to what is told at once. -/
theorem run_eq (o : Operation) : o.run e d = o.ending e d := by
  cases o <;> simp only [Operation.run, Operation.work, Operation.ending, session_map]
  case addWallet => rw [session_addWallet]
  case setWalletStatus => rw [session_setWalletStatus]
  case getStrategy => rw [session_getStrategy]
  case createStrategy => rw [session_createStrategy]
  case updateStrategy => rw [session_updateStrategy]
  case deleteStrategy => rw [session_deleteStrategy]
  case deleteWallet => rw [session_deleteWallet]
  case assignStrategy => rw [session_assignStrategy]
  case unassignStrategy => rw [session_unassignStrategy]
  case activate => rw [session_activate]
  case deactivate => rw [session_deactivate]
  case haltStrategy => rw [session_haltStrategy]
  case haltWallet => rw [session_haltWallet]
  case kill => rw [session_kill]
  case unkill => rw [session_unkill]
  case hasRunning => rw [session_hasRunning]

end Desk

end StrategyDesk
