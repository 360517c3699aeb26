import StrategyDesk.Proofs.Keyless
import StrategyDesk.Proofs.Requests

/-!
Private keys stay secret. Two runs of operations and requests that differ only in the keys of the
wallets they add are told apart by nothing but the keys in the activations that are sent.
-/

set_option autoImplicit false

namespace StrategyDesk
open Engine Service

variable {σ τ : Type}

/-! ### Turns -/

inductive Task where
  | operation (o : Operation)
  | request (r : Request)

inductive Answer where
  | result (r : Except Failure Result)
  | response (r : Response)

/-- A task that was carried out, with the desk before it and all that came of it. -/
structure Turn (σ : Type) where
  before : Desk σ
  answer : Answer
  after : Desk σ
  sent : List Exchange
  asked : List Generation.Question
  log : Log

def Turn.ofEnding (d : Desk σ) (x : Ending σ Result) : Turn σ :=
  ⟨d, .result x.result, x.desk, x.sent, [], x.log⟩

def Turn.ofServed (d : Desk σ) (x : Served σ) : Turn σ :=
  ⟨d, .response x.response, x.desk, x.sent, x.asked, x.log⟩

def Task.run (s : Setup) (w : Outside σ) (d : Desk σ) : Task → Turn σ
  | operation o => .ofEnding d (o.run w.engine d)
  | request r => .ofServed d (serve s w d r)

def Desk.turns (s : Setup) (w : Outside σ) (d : Desk σ) : List Task → List (Turn σ)
  | [] => []
  | t :: ts => t.run s w d :: Desk.turns s w (t.run s w d).after ts

/-- What is seen of a turn: wallets without their keys, and calls without the keys in them. -/
structure Report where
  answer : Answer
  wallets : List String
  strategies : List Strategy
  assignments : List Assignment
  sent : List Exchange
  asked : List Generation.Question
  log : Log

def Turn.report (t : Turn σ) : Report :=
  ⟨t.answer, t.after.store.wallets.map Wallet.shown, t.after.store.strategies,
    t.after.store.assignments, t.sent.map Exchange.keyless, t.asked, t.log⟩

/-! ### Turns without keys -/

/-- The world outside, seen through a view, answers as one that is told no keys. -/
structure Service.Outside.IsBlind (w : Outside σ) (view : σ → τ) (v : Outside τ) : Prop where
  engine : Engine.IsBlind w.engine view v.engine
  provider : ∀ s q, v.provider (view s) q = ((w.provider s q).1, view (w.provider s q).2)
  requests : v.requests = w.requests
  answers : v.answers = w.answers
  mistaken : v.mistaken = w.mistaken
  passed : v.passed = w.passed
  dumper : v.dumper = w.dumper

def Service.Served.keyless (view : σ → τ) (x : Served σ) : Served τ :=
  ⟨x.response, x.desk.keyless view, x.sent.map Exchange.keyless, x.asked, x.log⟩

def Task.keyless : Task → Task
  | operation o => operation o.keyless
  | request r => request r

def Turn.keyless (view : σ → τ) (t : Turn σ) : Turn τ :=
  ⟨t.before.keyless view, t.answer, t.after.keyless view, t.sent.map Exchange.keyless, t.asked,
    t.log⟩

namespace Service

variable {w : Outside σ} {view : σ → τ} {v : Outside τ}

theorem engineStatus_keyless (h : w.IsBlind view v) (d : Desk σ) :
    engineStatus v (d.keyless view) = (engineStatus w d).keyless view := by
  have hcall := h.engine d.engine .status
  simp only [Call.keyless] at hcall
  cases hreply : w.engine d.engine .status with
  | mk reply outside =>
    simp only [engineStatus, Desk.keyless, hcall, hreply, h.passed]
    split <;> rfl

theorem validate_keyless (h : w.IsBlind view v) (d : Desk σ) (g : Json) :
    validate v (d.keyless view) g = (validate w d g).keyless view := by
  have hids : (d.keyless view).ids = d.ids := rfl
  simp only [validate, hids, h.requests, h.dumper]
  split <;> rfl

theorem generate_keyless (s : Setup) (h : w.IsBlind view v) (d : Desk σ) (description : String) :
    generate s v (d.keyless view) description = (generate s w d description).keyless view := by
  cases hanswer : w.provider d.engine (.about description) with
  | mk completion outside =>
    simp only [generate, Desk.keyless, h.provider, h.answers, h.dumper, hanswer]
    split <;> rfl

theorem Asks.keyless {ids : PathIds} {carries : Json → Prop} {e : Endpoint} {o : Operation}
    (h : Asks ids carries e o) : o.keyless = o := by
  cases h <;> rfl

theorem operate_keyless (h : w.IsBlind view v) (d : Desk σ) {o : Operation}
    (ho : o.keyless = o) : operate v (d.keyless view) o = (operate w d o).keyless view := by
  have hrun := o.run_keyless h.engine d
  rw [ho] at hrun
  simp only [operate, hrun, h.dumper, Ending.keyless]
  split <;> rfl

theorem serve_keyless (s : Setup) (h : w.IsBlind view v) (d : Desk σ) (r : Request) :
    serve s v (d.keyless view) r = (serve s w d r).keyless view := by
  unfold serve
  rw [h.requests, h.mistaken]
  split
  · rfl
  · rename_i c hc
    cases c with
    | status => rfl
    | engineStatus => exact engineStatus_keyless h d
    | validate g => exact validate_keyless h d g
    | generate description => exact generate_keyless s h d description
    | operate o =>
      obtain ⟨e, ids, -, hasks⟩ := exists_asks_of_operate hc
      exact operate_keyless h d hasks.keyless

end Service

section Turns

variable {s : Setup} {w : Outside σ} {view : σ → τ} {v : Outside τ}

theorem Turn.ofEnding_keyless (view : σ → τ) (d : Desk σ) (x : Ending σ Result) :
    ofEnding (d.keyless view) (x.keyless view) = (ofEnding d x).keyless view := rfl

theorem Turn.ofServed_keyless (view : σ → τ) (d : Desk σ) (x : Served σ) :
    ofServed (d.keyless view) (x.keyless view) = (ofServed d x).keyless view := rfl

theorem Task.run_keyless (h : w.IsBlind view v) (d : Desk σ) (t : Task) :
    t.keyless.run s v (d.keyless view) = (t.run s w d).keyless view := by
  cases t with
  | operation o =>
    rw [keyless, run, run, o.run_keyless h.engine d, Turn.ofEnding_keyless]
  | request r =>
    rw [keyless, run, run, serve_keyless s h d r, Turn.ofServed_keyless]

theorem Desk.turns_keyless (h : w.IsBlind view v) (d : Desk σ) (ts : List Task) :
    (d.keyless view).turns s v (ts.map Task.keyless) =
      (d.turns s w ts).map (Turn.keyless view) := by
  induction ts generalizing d with
  | nil => rfl
  | cons t ts ih =>
    simp only [List.map_cons, turns, t.run_keyless h d]
    rw [← ih]
    rfl

theorem Turn.report_keyless (view : σ → τ) (t : Turn σ) : (t.keyless view).report = t.report := by
  have hwallets : (t.after.keyless view).store.wallets.map Wallet.shown =
      t.after.store.wallets.map Wallet.shown := by
    simp only [Desk.keyless, Store.keyless, List.map_map]
    rfl
  have hsent : (t.sent.map Exchange.keyless).map Exchange.keyless =
      t.sent.map Exchange.keyless := by
    rw [List.map_map]
    exact List.map_congr_left fun x _ => x.keyless_keyless
  simp only [report, keyless, hwallets, hsent]
  rfl

theorem Desk.reports_keyless (h : w.IsBlind view v) (d : Desk σ) (ts : List Task) :
    (d.turns s w ts).map Turn.report =
      ((d.keyless view).turns s v (ts.map Task.keyless)).map Turn.report := by
  rw [turns_keyless h, List.map_map]
  exact List.map_congr_left fun t _ => (t.report_keyless view).symm

end Turns

/-! ### The key in an activation -/

theorem Task.sound_run (s : Setup) (w : Outside σ) {d : Desk σ} (t : Task) (hs : d.store.Sound) :
    (t.run s w d).after.store.Sound := by
  cases t with
  | operation o => exact o.sound_run w.engine hs
  | request r =>
    dsimp only [run, Turn.ofServed]
    obtain ⟨hstore, -⟩ | ⟨e, ids, o, -, -, hserve⟩ := serve_cases s w d r
    · rw [hstore]
      exact hs
    · rw [hserve, operate_desk]
      exact o.sound_run w.engine hs

theorem Task.key_of_mem_sent {s : Setup} {w : Outside σ} {d : Desk σ} {t : Task} {x : Exchange}
    {walletId id : Int} {terms : Terms} (hs : d.store.Sound) (hx : x ∈ (t.run s w d).sent)
    (hcall : x.call = .activate walletId id terms) :
    ∃ row, d.store.wallet? walletId = some row ∧ terms.privateKey = row.privateKey := by
  cases t with
  | operation o => exact o.key_of_mem_sent hs hx hcall
  | request r =>
    dsimp only [run, Turn.ofServed] at hx
    obtain ⟨-, hsent⟩ | ⟨e, ids, o, -, -, hserve⟩ := serve_cases s w d r
    · rw [hsent x hx] at hcall
      cases hcall
    · rw [hserve, operate_sent] at hx
      exact o.key_of_mem_sent hs hx hcall

theorem Desk.key_of_mem_turns {s : Setup} {w : Outside σ} {d : Desk σ} (hs : d.store.Sound)
    {ts : List Task} {t : Turn σ} (ht : t ∈ d.turns s w ts) {x : Exchange} (hx : x ∈ t.sent)
    {walletId id : Int} {terms : Terms} (hcall : x.call = .activate walletId id terms) :
    ∃ row, t.before.store.wallet? walletId = some row ∧ terms.privateKey = row.privateKey := by
  induction ts generalizing d with
  | nil => cases ht
  | cons task ts ih =>
    rcases List.mem_cons.1 ht with rfl | ht
    · have hbefore : (task.run s w d).before = d := by cases task <;> rfl
      rw [hbefore]
      exact task.key_of_mem_sent hs hx hcall
    · exact ih (task.sound_run s w hs) ht

/-- Two runs of operations and requests that differ only in the keys of the wallets they add give
the same answers and the same log, leave the same tables but for the keys, and send the same calls
but for the keys in activations. The key in an activation is the one in the row of its wallet. -/
theorem keys_are_secret {w : Outside σ} {view : σ → τ} {v : Outside τ} (h : w.IsBlind view v)
    (s : Setup) (outside : σ) (ids : Form.Supply) (room : Room) {ts us : List Task}
    (hsame : ts.map Task.keyless = us.map Task.keyless) :
    ((Desk.fresh outside ids room).turns s w ts).map Turn.report =
        ((Desk.fresh outside ids room).turns s w us).map Turn.report ∧
      ∀ t ∈ (Desk.fresh outside ids room).turns s w ts, ∀ x ∈ t.sent, ∀ walletId id terms,
        x.call = .activate walletId id terms →
          ∃ row, t.before.store.wallet? walletId = some row ∧
            terms.privateKey = row.privateKey := by
  refine ⟨?_, fun t ht x hx walletId id terms hcall => ?_⟩
  · rw [Desk.reports_keyless h, Desk.reports_keyless h, hsame]
  · exact Desk.key_of_mem_turns .empty ht hx hcall

def noting : Outside (List Call) where
  engine calls c := (.answered 200 .null, calls ++ [c])
  provider calls _ := (.answered none, calls)
  requests := .direct
  answers := .direct
  mistaken := 900
  passed := 900
  dumper := .strict

theorem noting_isBlind : noting.IsBlind (List.map Call.keyless) noting where
  engine calls c := by simp [noting]
  provider calls q := rfl
  requests := rfl
  answers := rfl
  mistaken := rfl
  passed := rfl
  dumper := rfl

def startingWith (key : String) : List Task :=
  [.operation (.addWallet (some Wallet.deployed) none (some key)),
    .operation (.createStrategy (some 1) (some "s") none (.obj [("mode", .str "node")])),
    .operation (.assignStrategy 1 1 ⟨.null, .int 100, .null⟩),
    .request ⟨"POST", "/strategies/1/activate", none⟩]

theorem two_keys_are_secret : noting.IsBlind (List.map Call.keyless) noting ∧
    (startingWith "one").map Task.keyless = (startingWith "other").map Task.keyless ∧
    ((Desk.fresh [] .counted .direct).turns localSetup noting (startingWith "one")).map
        Turn.report =
      ((Desk.fresh [] .counted .direct).turns localSetup noting (startingWith "other")).map
        Turn.report := by
  have hsame : (startingWith "one").map Task.keyless =
    (startingWith "other").map Task.keyless := rfl
  exact ⟨noting_isBlind, hsame,
    (keys_are_secret noting_isBlind localSetup [] .counted .direct hsame).1⟩

end StrategyDesk
