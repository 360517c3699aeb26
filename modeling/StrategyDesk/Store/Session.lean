import StrategyDesk.Store.Desk

/-!
Sessions with the tables. Work in a session changes rows, which counts once it is committed; a
rollback takes back what was not. Changes that the tables cannot take are met when they are
flushed. The engine and the supply of ids are outside of the tables, so no rollback reaches them.
-/

set_option autoImplicit false

namespace StrategyDesk
open Engine

structure Session (σ : Type) where
  /-- The tables as they were last committed. -/
  kept : Store
  /-- The tables with the changes that were made since. -/
  rows : Store
  /-- Why the changes that were made since cannot be written. -/
  flaw : Option Crash
  /-- The wallets that were noted down. -/
  noted : List Int
  engine : σ
  ids : Form.Supply
  room : Room
  sent : List Exchange
  log : Log

/-- What is done in a session, which a failure ends early. -/
abbrev Work (σ : Type) := ExceptT Failure (StateM (Session σ))

variable {σ α β : Type}

namespace Work

def on (w : Work σ α) (s : Session σ) : Except Failure α × Session σ := StateT.run w.run s

def query (f : Store → α) : Work σ α := return f (← get).rows

def orFail (x : Except Failure α) : Work σ α :=
  match x with
  | .ok a => return a
  | .error f => throw f

def strategy (id : Int) : Work σ Strategy := do
  orFail (← query fun s => s.findStrategy id)

def wallet (id : Int) : Work σ Wallet := do
  orFail (← query fun s => s.findWallet id)

def change (f : Store → Store) : Work σ Unit := modify fun s => { s with rows := f s.rows }

/-- A change that the tables may not take. -/
def stage (f : Store → Except Crash Store) : Work σ Unit :=
  modify fun s =>
    match f s.rows with
    | .ok rows => { s with rows }
    | .error c => { s with flaw := s.flaw.or (some c) }

def report (log : Log) : Work σ Unit := modify fun s => { s with log := s.log ++ log }

def note (walletId : Int) : Work σ Unit := modify fun s => { s with noted := s.noted ++ [walletId] }

/-- Hands the changes over to the tables. -/
def flush : Work σ Unit := do
  match (← get).flaw with
  | some c => throw (.crash c)
  | none => return ()

def commit : Work σ Unit := do
  flush
  modify fun s => { s with kept := s.rows }

def orCrash (x : Except Crash α) : Work σ α :=
  match x with
  | .ok a => return a
  | .error c => throw (.crash c)

/-- Puts a row in its place and commits it, which fails if the row cannot be written. -/
def save (row : Except Crash α) (place : α → Store → Store) : Work σ α := do
  stage fun s => row.map fun a => place a s
  commit
  orCrash row

def rollback : Work σ Unit := modify fun s => { s with rows := s.kept, flaw := none }

/-- Work that is committed if it ends with a result and rolled back if it does not. -/
def transaction (w : Work σ α) : Work σ α :=
  tryCatch
    (do
      let a ← w
      commit
      return a)
    fun f => do
      rollback
      throw f

def call (e : Behaviour σ) (c : Call) : Work σ Unit := do
  let (reply, engine) := e (← get).engine c
  modify fun s =>
    { s with engine, sent := s.sent ++ [⟨c, reply⟩], log := s.log ++ (Exchange.mk c reply).log }
  match reply.outcome c with
  | .ok _ => return ()
  | .error f => throw f

def callEach (e : Behaviour σ) (callOf : Assignment → Call) (next : Assignment → Work σ Unit) :
    List Assignment → Work σ Unit
  | [] => return ()
  | a :: rows => do
    call e (callOf a)
    next a
    callEach e callOf next rows

@[simp]
theorem on_pure (a : α) (s : Session σ) : (pure a : Work σ α).on s = (.ok a, s) := rfl

theorem on_bind (w : Work σ α) (f : α → Work σ β) (s : Session σ) :
    (w >>= f).on s =
      match w.on s with
      | (.ok a, s) => (f a).on s
      | (.error e, s) => (.error e, s) := by
  unfold on
  simp only [ExceptT.run_bind, StateT.run_bind]
  rcases StateT.run w.run s with ⟨a | e, t⟩ <;> rfl

@[simp]
theorem on_get (s : Session σ) : (get : Work σ (Session σ)).on s = (.ok s, s) := rfl

@[simp]
theorem on_modify (f : Session σ → Session σ) (s : Session σ) :
    (modify f : Work σ Unit).on s = (.ok (), f s) := rfl

@[simp]
theorem on_throw (f : Failure) (s : Session σ) : (throw f : Work σ α).on s = (.error f, s) := rfl

theorem on_tryCatch (w : Work σ α) (handle : Failure → Work σ α) (s : Session σ) :
    (tryCatch w handle : Work σ α).on s =
      match w.on s with
      | (.ok a, s) => (.ok a, s)
      | (.error f, s) => (handle f).on s := by
  unfold on
  simp only [ExceptT.run_tryCatch, StateT.run_bind]
  rcases StateT.run w.run s with ⟨a | e, t⟩ <;> rfl

end Work

def Desk.opened (d : Desk σ) : Session σ :=
  ⟨d.store, d.store, none, [], d.engine, d.ids, d.room, [], []⟩

/-- Work at a desk in a session of its own, of which only what was committed lasts. -/
def Desk.session (d : Desk σ) (w : Work σ α) : Ending σ α :=
  let (result, s) := (Work.transaction w).on d.opened
  ⟨result, { d with store := s.kept, engine := s.engine, ids := s.ids }, s.sent, s.log⟩

end StrategyDesk
