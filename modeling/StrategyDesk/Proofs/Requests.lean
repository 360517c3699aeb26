import StrategyDesk.Proofs.Commands
import StrategyDesk.Proofs.History
import StrategyDesk.Proofs.JsonLevels
import StrategyDesk.Proofs.Settling
import StrategyDesk.Proofs.Soundness
import StrategyDesk.Service.Serve

/-!
Requests as operations. A request for an operation that passes its reading is that one operation:
the desk after it and the calls that it sends are those of the operation, and its status tells how
the operation ended. A request that does not pass leaves everything as it was.
-/

set_option autoImplicit false

namespace StrategyDesk.Service
open Json Reading

/-! ### Routes -/

/-- The endpoint for an operation, and the ids for it, by the method and the parts of a path. -/
inductive Leads : String → List String → Endpoint → PathIds → Prop where
  | create : Leads "POST" ["strategies"] .create []
  | update {s : String} (hs : s ≠ "") :
    Leads "PUT" ["strategies", s] .update [("strategy_id", s)]
  | delete {s : String} (hs : s ≠ "") :
    Leads "DELETE" ["strategies", s] .delete [("strategy_id", s)]
  | activate {s : String} (hs : s ≠ "") :
    Leads "POST" ["strategies", s, "activate"] .activate [("strategy_id", s)]
  | deactivate {s : String} (hs : s ≠ "") :
    Leads "POST" ["strategies", s, "deactivate"] .deactivate [("strategy_id", s)]
  | kill {s : String} (hs : s ≠ "") :
    Leads "POST" ["strategies", s, "kill"] .kill [("strategy_id", s)]
  | unkill {s : String} (hs : s ≠ "") :
    Leads "POST" ["strategies", s, "unkill"] .unkill [("strategy_id", s)]
  | assign {w : String} (hw : w ≠ "") :
    Leads "POST" ["wallets", w, "strategies"] .assign [("wallet_id", w)]
  | unassign {w s : String} (hw : w ≠ "") (hs : s ≠ "") :
    Leads "DELETE" ["wallets", w, "strategies", s] .unassign
      [("wallet_id", w), ("strategy_id", s)]
  | deleteWallet {w : String} (hw : w ≠ "") :
    Leads "DELETE" ["wallets", w] .deleteWallet [("wallet_id", w)]

theorem targetOf_eq {method : String} {path : List Char} {e : Endpoint} {ids : PathIds}
    (hmethod : e.method = method) (hfits : fits e.pattern (Net.segments path) = some ids)
    (honly : ∀ f : Endpoint, f.method = method → f ≠ e →
      fits f.pattern (Net.segments path) = none) : targetOf method path = .endpoint e ids := by
  have hmem : (e, ids) ∈ candidates (Net.segments path) :=
    List.mem_filterMap.2 ⟨e, by cases e <;> decide, by rw [hfits]; rfl⟩
  have hfirst : (candidates (Net.segments path)).find? (fun c => c.1.method == method) =
      some (e, ids) := by
    cases hfind : (candidates (Net.segments path)).find? fun c => c.1.method == method with
    | none =>
      have hnone := List.find?_eq_none.1 hfind _ hmem
      simp [hmethod] at hnone
    | some c =>
      obtain ⟨f, -, hf⟩ := List.mem_filterMap.1 (List.mem_of_find?_eq_some hfind)
      obtain ⟨ids', hids, rfl⟩ := Option.map_eq_some_iff.1 hf
      have hm : f.method = method := by simpa using List.find?_some hfind
      by_cases he : f = e
      · subst he
        rw [hfits, Option.some.injEq] at hids
        rw [hids]
      · rw [honly f hm he] at hids
        cases hids
  unfold targetOf
  split
  · rename_i hnil
    rw [hnil] at hmem
    cases hmem
  · rw [hfirst]

theorem route_of_leads {method : String} {path : List Char} {e : Endpoint} {ids : PathIds}
    (h : Leads method (Net.segments path) e ids) : route method path = .endpoint e ids := by
  have htarget : targetOf method path = .endpoint e ids := by
    generalize hsegments : Net.segments path = segments at h
    refine targetOf_eq ?_ ?_ fun f hf hne => ?_
    · cases h <;> rfl
    · rw [hsegments]
      cases h <;> simp_all [fits, isWord, Endpoint.pattern, Endpoint.strategies, Endpoint.wallets,
        Endpoint.strategyId, Endpoint.walletId]
    · rw [hsegments]
      cases h <;> cases f <;> simp_all [fits, isWord, Endpoint.method, Endpoint.pattern,
        Endpoint.strategies, Endpoint.wallets, Endpoint.strategyId, Endpoint.walletId]
  simp [route, htarget]

theorem operates_of_leads {method : String} {segments : List String} {e : Endpoint} {ids : PathIds}
    (h : Leads method segments e ids) : e.operates = true := by
  cases h <;> rfl

/-! ### Bodies -/

/-- The value that a body carries: its bytes are a JSON text that does not go too deep. -/
inductive Carries (levels : Nat) : Option ByteArray → Json → Prop where
  | text {bytes : ByteArray} {text : List CodePoint} {j : Json} (hbytes : bytes.isEmpty = false)
    (htext : Text.textOf? bytes = some text) (hj : IsText text j)
    (hlevels : ¬ Overruns levels (skipGaps text)) : Carries levels (some bytes) j

/-- Bytes that carry no value. -/
def CarriesNothing (levels : Nat) (body : Option ByteArray) : Prop :=
  ∃ bytes, body = some bytes ∧ bytes.isEmpty = false ∧ ∀ j, ¬ Carries levels body j

variable {levels : Nat}

theorem readBody_eq_some_iff {body : Option ByteArray} {j : Json} :
    readBody levels body = .ok (some j) ↔ Carries levels body j := by
  constructor
  · intro h
    unfold readBody at h
    split at h
    · cases h
    · split at h
      · cases h
      · rename_i hbytes
        split at h
        · rename_i text htext
          unfold readBodyText at h
          split at h
          · rename_i k hk
            cases h
            obtain ⟨hj, hlevels⟩ := readPoints_eq_ok_iff.1 hk
            exact .text (Bool.eq_false_iff.2 hbytes) htext hj hlevels
          all_goals cases h
        · cases h
  · intro h
    cases h with
    | text hbytes htext hj hlevels =>
      simp only [readBody, hbytes, Bool.false_eq_true, if_false, htext, readBodyText,
        readPoints_eq_ok_iff.2 ⟨hj, hlevels⟩]
      rfl

theorem readBody_cases (levels : Nat) (body : Option ByteArray) :
    (∃ j, readBody levels body = .ok (some j)) ∨ readBody levels body = .ok none ∨
      ((readBody levels body = .error .unreadableBody ∨
        ∃ n, readBody levels body = .error (.mistakes (bodyMistake n) [])) ∧
      CarriesNothing levels body) := by
  have hnothing {bytes : ByteArray} {x : Refusal} (hbytes : ¬ bytes.isEmpty = true)
      (hread : readBody levels (some bytes) = .error x) :
      CarriesNothing levels (some bytes) := by
    refine ⟨bytes, rfl, Bool.eq_false_iff.2 hbytes, fun j hj => ?_⟩
    rw [readBody_eq_some_iff.2 hj] at hread
    cases hread
  cases body with
  | none => exact Or.inr (Or.inl rfl)
  | some bytes =>
    by_cases hbytes : bytes.isEmpty = true
    · exact Or.inr (Or.inl (by simp only [readBody, hbytes, if_true]))
    · cases htext : Text.textOf? bytes with
      | none =>
        have hread : readBody levels (some bytes) = .error .unreadableBody := by
          simp only [readBody, hbytes, htext, Bool.false_eq_true, if_false]
        exact Or.inr (Or.inr ⟨Or.inl hread, hnothing hbytes hread⟩)
      | some text =>
        have hread : readBody levels (some bytes) = (readBodyText levels text).map some := by
          simp only [readBody, hbytes, htext, Bool.false_eq_true, if_false]
        cases hpoints : Json.readPoints levels text with
        | ok j =>
          simp only [readBodyText, hpoints] at hread
          exact Or.inl ⟨j, hread⟩
        | error e =>
          cases e with
          | mistake left =>
            simp only [readBodyText, hpoints] at hread
            exact Or.inr (Or.inr ⟨Or.inr ⟨_, hread⟩, hnothing hbytes hread⟩)
          | longNumeral | tooDeep =>
            simp only [readBodyText, hpoints] at hread
            exact Or.inr (Or.inr ⟨Or.inl hread, hnothing hbytes hread⟩)

theorem carries_utf8Encode {cs rest : List Char} {j : Json} (hcs : cs = '{' :: '"' :: rest)
    (h : ((readPoints levels (cs.map .char)).toOption == some j) = true) :
    Carries levels (some cs.utf8Encode) j := by
  subst hcs
  have htext : Text.textOf? ('{' :: '"' :: rest).utf8Encode =
      some (('{' :: '"' :: rest).map .char) :=
    Text.textOf?_utf8Encode (x := 0x7B) (y := 0x22) rest (by decide) (by decide) (by decide)
      (by decide) (by decide)
  have hread : readPoints levels (('{' :: '"' :: rest).map .char) = .ok j := by
    have hsome := eq_of_beq h
    cases hread : readPoints levels (('{' :: '"' :: rest).map .char) with
    | error e =>
      rw [hread] at hsome
      cases hsome
    | ok k =>
      rw [hread] at hsome
      exact congrArg Except.ok (Option.some.inj hsome)
  obtain ⟨hj, hlevels⟩ := readPoints_eq_ok_iff.1 hread
  exact .text (by simp [ByteArray.isEmpty]) htext hj hlevels

/-! ### Readings -/

section Readings

variable {r : Request} {e : Endpoint} {ids : PathIds}

theorem commandOf_of_route (h : route r.method (Net.path r.target) = .endpoint e ids) :
    commandOf levels r = (if e.hasBody then readBody levels r.body else .ok none).bind fun body =>
      match e.command ids body with
      | .value c => .ok c
      | .faulty d ds => .error (.mistakes d ds) := by
  unfold commandOf
  rw [h]
  dsimp only
  by_cases hbody : e.hasBody = true
  · rw [if_pos hbody, if_pos hbody]
    rfl
  · rw [if_neg hbody, if_neg hbody]
    rfl

/-- An operation is asked for exactly if the request passes its reading as that operation. -/
theorem commandOf_eq_operate_iff {o : Operation}
    (h : route r.method (Net.path r.target) = .endpoint e ids) :
    commandOf levels r = .ok (.operate o) ↔ Asks ids (Carries levels r.body) e o := by
  have hcommand {body : Option Json} :
      (match e.command ids body with
        | .value c => .ok c
        | .faulty d ds => .error (.mistakes d ds) : Except Refusal Command) = .ok (.operate o) ↔
        Asks ids (fun j => body = some j) e o := by
    refine ⟨fun hc => ?_, fun hasks => by rw [hasks.command]⟩
    split at hc
    · rename_i c hc'
      cases hc
      exact .of_command hc'
    · cases hc
  rw [commandOf_of_route h]
  by_cases hbody : e.hasBody = true
  · rw [if_pos hbody]
    constructor
    · intro hc
      cases hread : readBody levels r.body with
      | error x =>
        rw [hread] at hc
        cases hc
      | ok body =>
        rw [hread] at hc
        refine (hcommand.1 hc).mono fun j hj => ?_
        rw [hj] at hread
        exact readBody_eq_some_iff.1 hread
    · intro hasks
      obtain ⟨j, hj⟩ : ∃ j, Carries levels r.body j := by
        cases hasks with
        | create hj | update _ hj | assign _ hj => exact ⟨_, hj⟩
        | _ => cases hbody
      have hread := readBody_eq_some_iff.2 hj
      rw [hread]
      refine hcommand.2 (hasks.mono fun k hk => ?_)
      exact Except.ok.inj (hread.symm.trans (readBody_eq_some_iff.2 hk))
  · rw [if_neg hbody]
    refine (@hcommand none).trans
      ⟨fun hasks => hasks.mono fun j hj => (by cases hj), fun hasks => ?_⟩
    cases hasks with
    | create | update | assign => exact absurd rfl hbody
    | unassign hw hs => exact .unassign hw hs
    | delete hid | activate hid | deactivate hid | kill hid | unkill hid | deleteWallet hid =>
      constructor
      exact hid

theorem commandOf_of_unasked (h : route r.method (Net.path r.target) = .endpoint e ids)
    (he : e.operates = true) (hnone : ∀ o, ¬ Asks ids (Carries levels r.body) e o) :
    (commandOf levels r = .error .unreadableBody ∧ CarriesNothing levels r.body) ∨
      ∃ d ds, commandOf levels r = .error (.mistakes d ds) ∧ ∀ height, 0 < height →
        (∀ j, Carries levels r.body j → Response.isShowable height j = true) →
        FindsShowable height (d :: ds) := by
  have hmistakes {body : Option Json}
      (hread : (if e.hasBody then readBody levels r.body else .ok none) = .ok body)
      (hcarried : ∀ j, body = some j → Carries levels r.body j) :
      ∃ d ds, commandOf levels r = .error (.mistakes d ds) ∧ ∀ height, 0 < height →
        (∀ j, Carries levels r.body j → Response.isShowable height j = true) →
        FindsShowable height (d :: ds) := by
    have hcommand := @commandOf_of_route levels r e ids h
    rw [hread] at hcommand
    cases hc : e.command ids body with
    | value c =>
      obtain ⟨o, rfl⟩ := Endpoint.exists_operation he hc
      exact absurd ((Asks.of_command hc).mono hcarried) (hnone o)
    | faulty d ds =>
      rw [Except.bind, hc] at hcommand
      refine ⟨d, ds, hcommand, fun height hpos hshown => ?_⟩
      have hfound := Endpoint.findsShowable_command hpos ids
        (fun j hj => hshown j (hcarried j hj)) he
      rwa [hc] at hfound
  by_cases hbody : e.hasBody = true
  · simp only [hbody, if_true] at hmistakes
    obtain ⟨j, hread⟩ | hread | ⟨hread | ⟨n, hread⟩, hcarried⟩ := readBody_cases levels r.body
    · refine Or.inr (hmistakes hread fun k hk => ?_)
      rw [hk] at hread
      exact readBody_eq_some_iff.1 hread
    · exact Or.inr (hmistakes hread fun k hk => (by cases hk))
    · refine Or.inl ⟨?_, hcarried⟩
      rw [commandOf_of_route h, if_pos hbody, hread]
      rfl
    · refine Or.inr ⟨bodyMistake n, [], ?_, fun height hpos _ =>
        .single (Response.isShowable_iff.2 ⟨hpos, rfl, rfl⟩)⟩
      rw [commandOf_of_route h, if_pos hbody, hread]
      rfl
  · exact Or.inr (hmistakes (if_neg hbody) fun k hk => (by cases hk))

end Readings

/-! ### Results of operations that were asked for -/

def Endpoint.doneStatus : Endpoint → Nat
  | create | assign => 201
  | delete | unassign | deleteWallet => 204
  | _ => 200

variable {σ : Type}

def given : Operation → List Json
  | .createStrategy _ _ _ g => [g]
  | .updateStrategy _ _ _ g => g.toList
  | .assignStrategy _ _ q => [q.markets]
  | _ => []

/-- Everything that can come up in a response can be written into it. -/
def CanShow (d : Desk σ) (o : Operation) : Prop :=
  (∀ j ∈ given o, Response.IsWritable j) ∧
    ∀ row ∈ d.store.strategies, Response.IsWritable row.graph

theorem isWritable_of_accept {room : Room} {next : Form.Supply} {g : Json} {a : Accepted}
    (h : Graph.accept room next g = .ok a) (hg : Response.IsWritable g) :
    Response.IsWritable a.graph := by
  obtain ⟨hlow, hwhole⟩ := hg
  refine ⟨?_, Graph.allWhole_of_accept h hwhole⟩
  have := Graph.height_of_accept h
  omega

theorem mapM_text? (names : List Text) :
    (names.map Json.str).mapM AssignRequest.text? = some names := by
  induction names with
  | nil => rfl
  | cons name names ih => simp [List.mapM_cons, ih, AssignRequest.text?]

theorem marketsOf_marketsJson (names : Option (List Text)) :
    AssignRequest.marketsOf (marketsJson names) = .ok (names.getD []) := by
  cases names with
  | none => rfl
  | some names => simp only [marketsJson, AssignRequest.marketsOf, mapM_text?, Option.getD_some]

section Asked

variable {ids : PathIds} {carries : Json → Prop} {e : Endpoint} {o : Operation} {d : Desk σ}
  {a : Result} {t : Store} {x : Json.Dumper}

theorem Asks.not_unwritable (hasks : Asks ids carries e o) (hdone : o.Done d a t)
    (hshow : CanShow d o) : ¬ Response.Unwritable x a := by
  intro hunwritable
  obtain ⟨hgiven, hrows⟩ := hshow
  cases hasks with
  | create =>
    cases hdone with
    | createStrategy ha hr =>
      obtain ⟨-, hgraph, -⟩ := Desk.newStrategy_eq hr
      rw [Prod.mk.injEq] at hgraph
      cases hunwritable with
      | strategy h =>
        rw [hgraph.2] at h
        exact h (isWritable_of_accept ha (hgiven _ List.mem_cons_self)).writes
  | update =>
    cases hdone with
    | updateStrategy hold ha hnew =>
      obtain ⟨_, _, rfl⟩ := Desk.revised_eq hnew
      cases hunwritable with
      | strategy h =>
        obtain ⟨-, rfl⟩ | ⟨g, b, rfl, rfl, hb⟩ := Desk.acceptGiven_cases ha
        · have hmem := (Store.mem_of_strategy? (Store.strategy?_of_find hold)).1
          exact h (hrows _ hmem).writes
        · exact h (isWritable_of_accept hb (hgiven g (Option.mem_toList.2 rfl))).writes
  | @assign _ _ _ markets =>
    cases hdone with
    | assignStrategy _ _ hmarkets ha =>
      obtain ⟨_, _, -, -, rfl⟩ := AssignRequest.row_eq ha
      cases hunwritable with
      | assigned hname htorn =>
        have hwhole := (hgiven _ List.mem_cons_self).2
        unfold AssignRequest.check at hmarkets
        split at hmarkets
        · cases hmarkets
        · cases hmarkets
        · rw [marketsOf_marketsJson, Except.ok.injEq] at hmarkets
          subst hmarkets
          cases markets with
          | none => cases hname
          | some names =>
            have htext := itemsWhole_iff.1 hwhole _ (List.mem_map_of_mem (f := Json.str) hname)
            have htext : (!Text.isTorn _) = true := htext
            rw [htorn] at htext
            cases htext
  | _ =>
    cases hdone
    cases hunwritable

theorem Asks.status_ofResult (hasks : Asks ids carries e o) (hdone : o.Done d a t)
    (hwritable : ¬ Response.Unwritable x a) : (Response.ofResult x o a).status = e.doneStatus := by
  have hgraph {n : Nat} {row : Strategy} {members : Json → Members}
      (h : ¬ Response.Unwritable x (.strategy (some row))) :
      (Response.withGraph x n row.graph members).status = n :=
    Response.status_withGraph (of_not_not fun hnot => h (.strategy hnot))
  cases hasks with
  | create =>
    cases hdone
    exact hgraph hwritable
  | update =>
    cases hdone
    exact hgraph hwritable
  | assign =>
    cases hdone with
    | assignStrategy =>
      change (Response.ofAssignment 201 _).status = _
      rw [Response.ofAssignment_of_whole fun name hname => Bool.eq_false_iff.2 fun htorn =>
        hwritable (.assigned hname htorn)]
      rfl
  | _ => rfl

theorem Asks.ofResult_of_unwritable (hasks : Asks ids carries e o) (hdone : o.Done d a t)
    (h : Response.Unwritable x a) : Response.ofResult x o a = .internalError := by
  cases hasks with
  | create | update =>
    cases hdone
    cases h with
    | strategy h =>
      change Response.ofStrategy _ _ _ = _
      exact Response.withGraph_of_not_writes h
  | assign =>
    cases hdone
    cases h with
    | assigned hname htorn => exact Response.ofAssignment_of_torn hname htorn
  | _ =>
    cases hdone
    cases h

end Asked

/-! ### Requests served -/

/-- A request comes to what an operation comes to, and its status tells of every failure that has
one and of every result that can be shown. -/
structure Serves (w : Outside σ) (d : Desk σ) (e : Endpoint) (o : Operation) (x : Served σ) :
    Prop where
  desk : x.desk = (o.run w.engine d).desk
  sent : x.sent = (o.run w.engine d).sent
  asked : x.asked = []
  failed {f : Failure} {n : Nat} : (o.run w.engine d).result = .error f →
    Response.statusOf? f = some n → x.response.status = n
  done {a : Result} : (o.run w.engine d).result = .ok a → CanShow d o →
    x.response.status = e.doneStatus

/-- A request comes to nothing. Its status tells that it has mistakes, or that no value could be
read from its body, if the values can be written into the response. -/
structure Rejects (w : Outside σ) (d : Desk σ) (r : Request) (x : Served σ) : Prop where
  desk : x.desk = d
  sent : x.sent = []
  asked : x.asked = []
  status : 0 < w.mistaken →
    (∀ j, Carries w.requests.levels r.body j → Response.isShowable w.mistaken j = true) →
    x.response.status = 422 ∨
      x.response.status = 400 ∧ CarriesNothing w.requests.levels r.body

section Served

variable {s : Setup} {w : Outside σ} {d : Desk σ} {r : Request} {e : Endpoint} {ids : PathIds}

theorem serve_of_command {c : Command} (h : commandOf w.requests.levels r = .ok c) :
    serve s w d r = perform s w d c := by
  unfold serve
  rw [h]

theorem serve_of_refusal (hleads : Leads r.method (Net.segments (Net.path r.target)) e ids)
    {x : Refusal} (h : commandOf w.requests.levels r = .error x) :
    serve s w d r = .only d (x.response w.mistaken) := by
  have hmethod (y : Response) : y.forMethod r.method = y := by
    generalize Net.segments (Net.path r.target) = segments at hleads
    generalize r.method = method at hleads
    cases hleads <;> rfl
  unfold serve
  rw [h]
  exact congrArg (Served.only d) (hmethod _)

theorem operate_of_done {o : Operation} {a : Result} (h : (o.run w.engine d).result = .ok a) :
    operate w d o = ⟨Response.ofResult w.dumper o a, (o.run w.engine d).desk,
      (o.run w.engine d).sent, [], (o.run w.engine d).log⟩ := by
  simp only [operate, h]

theorem operate_of_failure {o : Operation} {f : Failure}
    (h : (o.run w.engine d).result = .error f) :
    operate w d o = ⟨Response.ofFailure f, (o.run w.engine d).desk, (o.run w.engine d).sent, [],
      (o.run w.engine d).log ++ Response.failureLog f⟩ := by
  simp only [operate, h]

theorem ofDetails_of_showable {height : Nat} {ds : List Detail} (h : FindsShowable height ds) :
    Response.ofDetails height ds =
      .ofJson 422 (.obj [("detail", .arr (ds.map Response.detailJson))]) :=
  if_pos (List.all_eq_true.2 fun x hx => Response.isShowable_withoutInternal (h x hx))

theorem serves_of_asks (hleads : Leads r.method (Net.segments (Net.path r.target)) e ids)
    {o : Operation} (hasks : Asks ids (Carries w.requests.levels r.body) e o) :
    Serves w d e o (serve s w d r) := by
  have hserve : serve s w d r = operate w d o :=
    serve_of_command ((commandOf_eq_operate_iff (route_of_leads hleads)).2 hasks)
  rw [hserve]
  cases hresult : (o.run w.engine d).result with
  | ok a =>
    rw [operate_of_done hresult]
    refine ⟨rfl, rfl, rfl, fun hf => ?_, fun hb hshow => ?_⟩
    · rw [hresult] at hf
      cases hf
    · rw [hresult, Except.ok.injEq] at hb
      subst hb
      have hdone := Operation.done_of_ok hresult
      exact hasks.status_ofResult hdone (hasks.not_unwritable hdone hshow)
  | error f =>
    rw [operate_of_failure hresult]
    refine ⟨rfl, rfl, rfl, fun hf hn => ?_, fun ha => ?_⟩
    · rw [hresult, Except.error.injEq] at hf
      subst hf
      exact Response.status_ofFailure hn
    · rw [hresult] at ha
      cases ha

theorem rejects_of_unasked (hleads : Leads r.method (Net.segments (Net.path r.target)) e ids)
    (hnone : ∀ o, ¬ Asks ids (Carries w.requests.levels r.body) e o) :
    Rejects w d r (serve s w d r) := by
  obtain ⟨hcommand, hnothing⟩ | ⟨x, xs, hcommand, hshowable⟩ :=
    commandOf_of_unasked (route_of_leads hleads) (operates_of_leads hleads) hnone
  · rw [serve_of_refusal hleads hcommand]
    exact ⟨rfl, rfl, rfl, fun _ _ => Or.inr ⟨rfl, hnothing⟩⟩
  · rw [serve_of_refusal hleads hcommand]
    refine ⟨rfl, rfl, rfl, fun hpos hshown => Or.inl ?_⟩
    change (Response.ofDetails w.mistaken (x :: xs)).status = 422
    rw [ofDetails_of_showable (hshowable w.mistaken hpos hshown)]
    rfl

end Served

/-! ### Every request -/

theorem exists_asks_of_operate {r : Request} {o : Operation}
    (h : commandOf levels r = .ok (.operate o)) :
    ∃ e ids, route r.method (Net.path r.target) = .endpoint e ids ∧
      Asks ids (Carries levels r.body) e o := by
  cases hroute : route r.method (Net.path r.target) with
  | endpoint e ids => exact ⟨e, ids, rfl, (commandOf_eq_operate_iff hroute).1 h⟩
  | unknown | otherMethod =>
    unfold commandOf at h
    rw [hroute] at h
    cases h

/-- Any request comes to the operation that it asks for, or else leaves the tables and asks the
engine at most for its status. -/
theorem serve_cases (s : Setup) (w : Outside σ) (d : Desk σ) (r : Request) :
    ((serve s w d r).desk.store = d.store ∧ ∀ x ∈ (serve s w d r).sent, x.call = .status) ∨
      ∃ e ids o, route r.method (Net.path r.target) = .endpoint e ids ∧
        Asks ids (Carries w.requests.levels r.body) e o ∧ serve s w d r = operate w d o := by
  unfold serve
  cases hcommand : commandOf w.requests.levels r with
  | error x => exact Or.inl ⟨rfl, List.forall_mem_nil _⟩
  | ok c =>
    cases c with
    | operate o =>
      obtain ⟨e, ids, hroute, hasks⟩ := exists_asks_of_operate hcommand
      exact Or.inr ⟨e, ids, o, hroute, hasks, rfl⟩
    | status => exact Or.inl ⟨rfl, List.forall_mem_nil _⟩
    | engineStatus =>
      refine Or.inl ?_
      simp only [perform, engineStatus]
      split <;> exact ⟨rfl, List.forall_mem_singleton.2 rfl⟩
    | validate g =>
      refine Or.inl ?_
      simp only [perform, validate]
      split <;> exact ⟨rfl, List.forall_mem_nil _⟩
    | generate description =>
      refine Or.inl ?_
      simp only [perform, generate]
      split <;> exact ⟨rfl, List.forall_mem_nil _⟩

theorem operate_desk (w : Outside σ) (d : Desk σ) (o : Operation) :
    (operate w d o).desk = (o.run w.engine d).desk := by
  unfold operate
  dsimp only
  split <;> rfl

theorem operate_sent (w : Outside σ) (d : Desk σ) (o : Operation) :
    (operate w d o).sent = (o.run w.engine d).sent := by
  unfold operate
  dsimp only
  split <;> rfl

/-! ### Requests in turn -/

/-- The operations that are asked for by requests in turn, without those that ask for none. -/
inductive AskInTurn (levels : Nat) : List Request → List Operation → Prop where
  | nil : AskInTurn levels [] []
  | asked {r : Request} {rs : List Request} {e : Endpoint} {ids : PathIds} {o : Operation}
    {os : List Operation} (hleads : Leads r.method (Net.segments (Net.path r.target)) e ids)
    (hasks : Asks ids (Carries levels r.body) e o) (h : AskInTurn levels rs os) :
    AskInTurn levels (r :: rs) (o :: os)
  | unasked {r : Request} {rs : List Request} {e : Endpoint} {ids : PathIds}
    {os : List Operation} (hleads : Leads r.method (Net.segments (Net.path r.target)) e ids)
    (hnone : ∀ o, ¬ Asks ids (Carries levels r.body) e o) (h : AskInTurn levels rs os) :
    AskInTurn levels (r :: rs) os

def serveAll (s : Setup) (w : Outside σ) (d : Desk σ) :
    List Request → Desk σ × List Engine.Exchange
  | [] => (d, [])
  | r :: rs =>
    let x := serve s w d r
    let rest := serveAll s w x.desk rs
    (rest.1, x.sent ++ rest.2)

theorem serveAll_eq (s : Setup) (w : Outside σ) (d : Desk σ) {rs : List Request}
    {os : List Operation} (h : AskInTurn w.requests.levels rs os) :
    serveAll s w d rs =
      (d.run w.engine os, (d.history w.engine os).flatMap fun v => v.ending.sent) := by
  -- The desk after a request is the one of the requests after it.
  induction h generalizing d with
  | nil => rfl
  | asked hleads hasks _ ih =>
    have hserves := serves_of_asks (s := s) (d := d) hleads hasks
    rw [serveAll, ih, hserves.desk, hserves.sent]
    rfl
  | unasked hleads hnone _ ih =>
    have hrejects := rejects_of_unasked (s := s) (d := d) hleads hnone
    rw [serveAll, ih, hrejects.desk, hrejects.sent]
    rfl

theorem exists_askInTurn (levels : Nat) {rs : List Request}
    (h : ∀ r ∈ rs, ∃ e ids, Leads r.method (Net.segments (Net.path r.target)) e ids) :
    ∃ os, AskInTurn levels rs os := by
  induction rs with
  | nil => exact ⟨[], .nil⟩
  | cons r rs ih =>
    obtain ⟨os, hos⟩ := ih fun q hq => h q (List.mem_cons_of_mem r hq)
    obtain ⟨e, ids, hleads⟩ := h r List.mem_cons_self
    by_cases hasks : ∃ o, Asks ids (Carries levels r.body) e o
    · obtain ⟨o, ho⟩ := hasks
      exact ⟨o :: os, .asked hleads ho hos⟩
    · exact ⟨os, .unasked hleads (not_exists.1 hasks) hos⟩

/-- A request for an operation does what the operation does and nothing else. One that no operation
is asked for with does nothing. Requests in turn do what the operations do that they ask for. -/
theorem served_requests (s : Setup) (w : Outside σ) (d : Desk σ) :
    (∀ (r : Request) (e : Endpoint) (ids : PathIds),
      Leads r.method (Net.segments (Net.path r.target)) e ids →
        (∀ o, Asks ids (Carries w.requests.levels r.body) e o →
          Serves w d e o (serve s w d r)) ∧
        ((∀ o, ¬ Asks ids (Carries w.requests.levels r.body) e o) →
          Rejects w d r (serve s w d r))) ∧
    ∀ rs : List Request,
      (∀ r ∈ rs, ∃ e ids, Leads r.method (Net.segments (Net.path r.target)) e ids) →
        (∃ os, AskInTurn w.requests.levels rs os) ∧
        ∀ os, AskInTurn w.requests.levels rs os → serveAll s w d rs =
          (d.run w.engine os, (d.history w.engine os).flatMap fun v => v.ending.sent) :=
  ⟨fun _ _ _ hleads => ⟨fun _ hasks => serves_of_asks hleads hasks,
    fun hnone => rejects_of_unasked hleads hnone⟩,
    fun _ h => ⟨exists_askInTurn _ h, fun _ hos => serveAll_eq s w d hos⟩⟩

def localSetup : Setup :=
  ⟨⟨.anthropic, .str "model", .int 1, .double .one⟩, "http://localhost:3001", .one, "sqlite://"⟩

def willing : Outside Unit where
  engine _ _ := (.answered 200 .null, ())
  provider _ _ := (.answered none, ())
  requests := .direct
  answers := .direct
  mistaken := 900
  passed := 900
  dumper := .strict

def creation (body : ByteArray) : Request := ⟨"POST", "/strategies", some body⟩

theorem leads_creation (body : ByteArray) :
    Leads (creation body).method (Net.segments (Net.path (creation body).target)) .create [] := by
  have hsegments : Net.segments (Net.path "/strategies") = ["strategies"] := by decide +kernel
  rw [creation, hsegments]
  exact .create

def firstAssignment (body : ByteArray) : Request :=
  ⟨"POST", "/wallets/1/strategies", some body⟩

theorem leads_firstAssignment (body : ByteArray) :
    Leads (firstAssignment body).method (Net.segments (Net.path (firstAssignment body).target))
      .assign [("wallet_id", "1")] := by
  have hsegments : Net.segments (Net.path "/wallets/1/strategies") =
      ["wallets", "1", "strategies"] := by
    decide +kernel
  rw [firstAssignment, hsegments]
  exact .assign (by decide)

def emptyFlow : Json := .obj [("mode", .str "node")]

def plainCreation : List Char :=
  "\x7b\"user_id\": 1.0, \"name\": \"s\", \"graph\": \x7b\"mode\": \"node\"\x7d\x7d".toList

theorem carries_plainCreation : Carries willing.requests.levels (some plainCreation.utf8Encode)
    (.obj [("user_id", .double .one), ("name", .str "s"), ("graph", emptyFlow)]) :=
  carries_utf8Encode rfl (by decide +kernel)

def lenientTerms : Members :=
  [("strategy_id", .str "1"), ("markets", .arr [.str "m"]), ("max_position_usdc", .str " 2.5 "),
    ("is_paper", .str "on")]

def lenientText : List Char :=
  "\x7b\"strategy_id\": \"1\", \"markets\": [\"m\"], ".toList ++
    "\"max_position_usdc\": \" 2.5 \", \"is_paper\": \"on\"\x7d".toList

theorem carries_lenientText :
    Carries willing.requests.levels (some lenientText.utf8Encode) (.obj lenientTerms) :=
  carries_utf8Encode rfl (by decide +kernel)

/-- A strategy is created and assigned in words and numerals. The id in the last path is none. -/
theorem served_requests_in_turn :
    let d := (Desk.fresh () .counted .direct).run willing.engine
      [.addWallet (some Wallet.deployed) none none]
    let rs := [creation plainCreation.utf8Encode, firstAssignment lenientText.utf8Encode,
      ⟨"POST", "/strategies/x/activate", none⟩]
    let os := [Operation.createStrategy (some 1) (some "s") none emptyFlow,
      .assignStrategy 1 1 ⟨.arr [.str "m"], .double (.ofRatio false 5 2), .bool true⟩]
    (∀ r ∈ rs, ∃ e ids, Leads r.method (Net.segments (Net.path r.target)) e ids) ∧
      AskInTurn willing.requests.levels rs os ∧
      (serveAll localSetup willing d rs).1 = d.run willing.engine os ∧
      (serveAll localSetup willing d rs).1.store.assignments =
        [⟨1, 1, 1, ["m"], .ofRatio false 5 2, true, false, false⟩] := by
  intro d rs os
  have hone : Double.one.value? = some ((1 : ℤ) : ℚ) :=
    Double.value?_eq_intCast_iff.2 (by decide +kernel)
  have hcreation : Asks [] (Carries willing.requests.levels (some plainCreation.utf8Encode)) .create
      (.createStrategy (some 1) (some "s") none emptyFlow) :=
    .create carries_plainCreation ⟨_, rfl, .double hone (by decide)⟩ ⟨_, rfl, rfl, by decide⟩
      (Or.inr ⟨rfl, rfl⟩) ⟨_, rfl, rfl, _, rfl⟩
  have hlimit : MeansLimit (.str " 2.5 ") (.ofRatio false 5 2) :=
    ⟨.numeral (by decide +kernel), bounds_iff.1 (by decide +kernel)⟩
  have hmarkets : GivesOr lenientTerms "markets" (MeansOption (MeansList MeansText)) none
      (some ["m"]) :=
    Or.inl ⟨_, rfl, .value (by simp) (.items (by simp [MeansText]))⟩
  have hassignment : Asks [("wallet_id", "1")]
      (Carries willing.requests.levels (some lenientText.utf8Encode)) .assign
      (.assignStrategy 1 1 ⟨.arr [.str "m"], .double (.ofRatio false 5 2), .bool true⟩) :=
    .assign ⟨"1", rfl, .numeral rfl⟩ carries_lenientText ⟨_, rfl, .numeral rfl⟩ hmarkets
      (Or.inl ⟨_, rfl, _, hlimit, rfl⟩) (Or.inl ⟨_, rfl, .word (by decide)⟩)
  have hlast : Net.segments (Net.path "/strategies/x/activate") =
      ["strategies", "x", "activate"] := by
    decide +kernel
  have hactivation : Leads "POST" (Net.segments (Net.path "/strategies/x/activate")) .activate
      [("strategy_id", "x")] := by
    rw [hlast]
    exact .activate (by decide)
  have hnone : ∀ o, ¬ Asks [("strategy_id", "x")] (Carries willing.requests.levels none) .activate
      o := by
    intro o hasks
    cases hasks with
    | activate hid =>
      obtain ⟨t, ht, hmeans⟩ := hid
      cases ht
      cases hmeans with
      | numeral h => cases h
  have hturn : AskInTurn willing.requests.levels rs os :=
    .asked (leads_creation _) hcreation (.asked (leads_firstAssignment _) hassignment
      (.unasked hactivation hnone .nil))
  have hleads : ∀ r ∈ rs, ∃ e ids, Leads r.method (Net.segments (Net.path r.target)) e ids := by
    simp only [rs, List.forall_mem_cons, List.not_mem_nil, false_implies, implies_true, and_true]
    exact ⟨⟨_, _, leads_creation _⟩, ⟨_, _, leads_firstAssignment _⟩, ⟨_, _, hactivation⟩⟩
  have hall := ((served_requests localSetup willing d).2 rs hleads).2 os hturn
  have hdesk : (serveAll localSetup willing d rs).1 = d.run willing.engine os := by rw [hall]
  refine ⟨hleads, hturn, hdesk, ?_⟩
  rw [hdesk]
  decide +kernel

end StrategyDesk.Service
