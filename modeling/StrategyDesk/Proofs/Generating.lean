import StrategyDesk.Generation.Client
import StrategyDesk.Proofs.JsonLevels
import StrategyDesk.Proofs.Stumbling

/-!
Generating a form, from the description to what comes of the answer. Whichever the vendor is, its
client is called once and told the same, and what comes of its reply depends on the status, on the
want of a connection, or on the text in the answer: whether it goes too deep, whether it is the
JSON text of an object, and whether that is a form.
-/

set_option autoImplicit false

namespace StrategyDesk.Generation
open Text

/-- The text in an answer; an answer without one says nothing. -/
inductive ClientReply.Says : {v : Vendor} → ClientReply v → String → Prop where
  | block (t : String) (rest : List Block) : Says (.blocks (.text (some t) :: rest)) t
  | nullBlock (rest : List Block) : Says (.blocks (.text none :: rest)) ""
  | textless (rest : List Block) : Says (.blocks (.textless :: rest)) ""
  | noBlock : Says (.blocks []) ""
  | choice (t : String) (rest : List (Option String)) : Says (.choices (some t :: rest)) t
  | nullChoice (rest : List (Option String)) : Says (.choices (none :: rest)) ""
  | noChoice : Says (.choices []) ""

/-- Too many levels open at the front of a text to read it. -/
def GoesTooDeep (levels : Nat) (u : List Char) : Prop := 
  Json.Overruns levels (Json.skipGaps (u.map .char))

/-- What comes of a text in which a form is looked for. -/
inductive Yields (room : Room) (next : Form.Supply) (u : List Char) :
    Except Failure (Json × Form.Supply) → Prop where
  | accepted {ms : Json.Members} {r : Json × Form.Supply} (h : Json.IsText (u.map .char) (.obj ms))
    (hlevels : ¬ GoesTooDeep room.levels u) (hform : Form.IsForm (.obj ms))
    (hids : Form.withIds room next (.obj ms) = .ok r) : Yields room next u (.ok r)
  | rejected {ms : Json.Members} {f : Form.Fault} (h : Json.IsText (u.map .char) (.obj ms))
    (hlevels : ¬ GoesTooDeep room.levels u) (hfault : Form.check (.obj ms) = .error (.fault f)) :
    Yields room next u (.error (.rejected f.report.text (some f.path)))
  | notJson (h : ∀ ms, ¬ Json.IsText (u.map .char) (.obj ms))
      (hlevels : ¬ GoesTooDeep room.levels u) :
    Yields room next u (.error (.notJson (String.ofList (u.take 200))))
  | stumbled {ms : Json.Members} {c : Crash} (h : Json.IsText (u.map .char) (.obj ms))
    (hlevels : ¬ GoesTooDeep room.levels u) (htrips : Form.Trips room (.obj ms) c) :
    Yields room next u (.error (.crash c))
  | tooDeep (hlevels : GoesTooDeep room.levels u) : Yields room next u (.error (.crash .tooDeep))

/-- What comes of a client's reply. -/
inductive Comes (room : Room) (next : Form.Supply) :
    {v : Vendor} → ClientReply v → Except Failure (Json × Form.Supply) → Prop where
  | answered {v : Vendor} {reply : ClientReply v} {t : String}
      {r : Except Failure (Json × Form.Supply)}
    (h : reply.Says t) (hr : Yields room next (stripFences t.toList) r) : Comes room next reply r
  | refused {v : Vendor} (status : Int) :
    Comes room next (.status status : ClientReply v) (.error (.provider (some status) ""))
  | unreachable {v : Vendor} (cause detail : String) :
    Comes room next (.unconnected cause detail : ClientReply v) (.error (.provider none cause))
  | broken {v : Vendor} (m : String) :
      Comes room next (.broken m : ClientReply v) (.error (.broken m))

theorem Yields.parseAnswer_eq {room : Room} {next : Form.Supply} {raw : List Char}
    {r : Except Failure (Json × Form.Supply)}
    (h : Yields room next (stripFences raw) r) : parseAnswer room next raw = r := by
  have hread {ms : Json.Members} (h : Json.IsText ((stripFences raw).map .char) (.obj ms))
      (hlevels : ¬ GoesTooDeep room.levels (stripFences raw)) :
      parseAnswer room next raw = (Form.accept room next (.obj ms)).mapError rejection := by
    simp only [parseAnswer, Json.readChars, Json.readPoints_eq_ok_iff.2 ⟨h, hlevels⟩]
  cases h with
  | accepted h hlevels hform hids =>
    rw [hread h hlevels, Form.accept, Form.check_eq_ok_iff.2 hform, hids]
    rfl
  | rejected h hlevels hfault =>
    rw [hread h hlevels, Form.accept, hfault]
    rfl
  | notJson h hlevels =>
    unfold parseAnswer
    simp only
    split
    · rename_i ms hms
      exact absurd (Json.readPoints_eq_ok_iff.1 hms).1 (h ms)
    · rename_i hdeep
      exact absurd (Json.readPoints_eq_tooDeep_iff.1 hdeep) hlevels
    · rfl
  | stumbled h hlevels htrips =>
    rw [hread h hlevels, Form.accept_eq_crash_iff.2 htrips]
    rfl
  | tooDeep hlevels =>
    simp only [parseAnswer, Json.readChars, Json.readPoints_eq_tooDeep_iff.2 hlevels]

theorem exists_yields (room : Room) (next : Form.Supply) (u : List Char) :
    ∃ r, Yields room next u r := by
  by_cases hlevels : GoesTooDeep room.levels u
  · exact ⟨_, .tooDeep hlevels⟩
  by_cases hobject : ∃ ms, Json.IsText (u.map .char) (.obj ms)
  · obtain ⟨ms, h⟩ := hobject
    obtain ⟨hform, hlow, -⟩ | ⟨c, htrips, -⟩ | ⟨f, hfault, -⟩ :=
      Form.accept_cases room next (.obj ms)
    · obtain ⟨hhigh, -⟩ | ⟨-, r, hids⟩ := Form.withIds_of_isForm hform room next
      · exact absurd hhigh hlow
      · exact ⟨_, .accepted h hlevels hform hids⟩
    · exact ⟨_, .stumbled h hlevels htrips⟩
    · exact ⟨_, .rejected h hlevels hfault⟩
  · exact ⟨_, .notJson (fun ms h => hobject ⟨ms, h⟩) hlevels⟩

theorem ClientReply.Says.completion_eq {v : Vendor} {reply : ClientReply v} {t : String}
    (h : reply.Says t) : reply.completion.outcome = .ok t := by
  cases h <;> rfl

theorem Comes.generate_eq {room : Room} {next : Form.Supply} {v : Vendor} {reply : ClientReply v}
    {r : Except Failure (Json × Form.Supply)} (h : Comes room next reply r) :
    generate room next reply.completion = r := by
  cases h with
  | answered h hr => simp only [generate, h.completion_eq, hr.parseAnswer_eq]
  | _ => rfl

theorem exists_comes (room : Room) (next : Form.Supply) {v : Vendor} (reply : ClientReply v) :
    ∃ r, Comes room next reply r := by
  have hanswer {t : String} (h : reply.Says t) : ∃ r, Comes room next reply r := by
    obtain ⟨r, hr⟩ := exists_yields room next (stripFences t.toList)
    exact ⟨r, .answered h hr⟩
  match reply with
  | .blocks [] => exact hanswer .noBlock
  | .blocks (.textless :: rest) => exact hanswer (.textless rest)
  | .blocks (.text none :: rest) => exact hanswer (.nullBlock rest)
  | .blocks (.text (some t) :: rest) => exact hanswer (.block t rest)
  | .choices [] => exact hanswer .noChoice
  | .choices (none :: rest) => exact hanswer (.nullChoice rest)
  | .choices (some t :: rest) => exact hanswer (.choice t rest)
  | .status code => exact ⟨_, .refused code⟩
  | .unconnected cause detail => exact ⟨_, .unreachable cause detail⟩
  | .broken m => exact ⟨_, .broken m⟩

theorem generate_eq_iff {room : Room} {next : Form.Supply} {v : Vendor} {reply : ClientReply v}
    {r : Except Failure (Json × Form.Supply)} :
    generate room next reply.completion = r ↔ Comes room next reply r := by
  constructor
  · rintro rfl
    obtain ⟨r, hr⟩ := exists_comes room next reply
    rw [hr.generate_eq]
    exact hr
  · exact Comes.generate_eq

theorem Provider.told (p : Provider) (description : String) :
    (p.call (Question.about description)).said .user = [description] ∧
      (p.call (Question.about description)).instructions = [systemPrompt] := by
  obtain ⟨v, model, maxTokens, timeout⟩ := p
  cases v <;> exact ⟨rfl, rfl⟩

/-- A form is generated with one call of the client, which is told the instructions and the
description as it is, and what comes of it is what comes of the reply. -/
theorem generated_of_reply {σ : Type} (p : Provider) (client : Client σ p.vendor) (s : σ)
    (room : Room) (next : Form.Supply) (description : String) : ∃ call reply,
      (p.generate client s room next description).calls = [call] ∧
      call.said .user = [description] ∧ call.instructions = [systemPrompt] ∧
      client s call = (reply, (p.generate client s room next description).client) ∧
      ∀ r, (p.generate client s room next description).result = r ↔ Comes room next reply r := by
  obtain ⟨huser, hsystem⟩ := p.told description
  exact ⟨p.call (Question.about description), (client s (p.call (Question.about description))).1,
    rfl, huser, hsystem, rfl, fun r => generate_eq_iff⟩

/-- Whether a generation ends with the report that a text is no JSON object if it is none, and
only then. -/
def ReportsNoObject (u : List Char) (r : Except Failure (Json × Form.Supply)) : Prop :=
  (∃ snippet, r = .error (.notJson snippet)) ↔ ∀ ms, ¬ Json.IsText (u.map .char) (.obj ms)

def brackets (n : Nat) : String := String.ofList (List.replicate n '[')

theorem overruns_brackets (n : Nat) (rest : List CodePoint) :
    Json.Overruns n (List.replicate (n + 1) (.char '[') ++ rest) := by
  induction n with
  | zero => exact .array
  | succ n ih => exact .inArray (g := []) (fun _ h => nomatch h) (.first ih)

theorem goesTooDeep_brackets {levels n : Nat} (h : levels < n) :
    GoesTooDeep levels (List.replicate n '[') := by
  obtain ⟨k, rfl⟩ := Nat.exists_eq_add_of_lt h
  have hsplit : List.replicate (levels + k + 1) (CodePoint.char '[') =
      List.replicate (levels + 1) (.char '[') ++ List.replicate k (.char '[') := by
    rw [List.replicate_append_replicate]
    congr 1
    omega
  have hskip : Json.skipGaps (List.replicate (levels + k + 1) (.char '[')) =
      List.replicate (levels + k + 1) (.char '[') := by
    rw [List.replicate_succ]
    rfl
  rw [GoesTooDeep, List.map_replicate, hskip, hsplit]
  exact overruns_brackets levels _

theorem stripFences_brackets (n : Nat) :
    stripFences (brackets n).toList = List.replicate n '[' := by
  have hbracket {c : Char} (h : c ∈ List.replicate n '[') : blank c = false := by
    rw [List.eq_of_mem_replicate h]
    decide
  have htrim : trim blank (List.replicate n '[') = List.replicate n '[' :=
    trim_eq_self_iff.2 ⟨fun c hc => hbracket (List.mem_of_mem_head? hc),
      fun c hc => hbracket (List.mem_of_getLast? hc)⟩
  have hfence : dropPrefix? (List.replicate n '[') fence = none := by
    cases n <;> rfl
  rw [brackets, String.toList_ofList, stripFences, htrim]
  simp only [hfence, htrim]

def unclosed (n : Nat) : Generated Unit :=
  Provider.generate ⟨.anthropic, .str "claude-sonnet-4-5", defaultMaxTokens, defaultTimeout⟩
    (fun s _ => (.blocks [.text (some (brackets n))], s)) () .direct .counted "Buy UP after a drop"

/-- Brackets that are never closed are no JSON object, and there may be too many to say so. -/
theorem not_reportsNoObject_unclosed :
    ¬ ReportsNoObject (stripFences (brackets 5000).toList) (unclosed 5000).result := by
  have hdeep : GoesTooDeep Room.direct.levels (stripFences (brackets 5000).toList) := by
    rw [stripFences_brackets]
    exact goesTooDeep_brackets (by decide)
  have hresult : (unclosed 5000).result = .error (.crash .tooDeep) :=
    (Yields.tooDeep hdeep).parseAnswer_eq
  rw [hresult, stripFences_brackets]
  intro h
  obtain ⟨snippet, hsnippet⟩ := h.2 fun ms htext => by
    -- The text of an object has a brace in it.
    have hbrace := htext.brace_mem
    rw [List.map_replicate, List.mem_replicate] at hbrace
    exact absurd hbrace.2 (by decide)
  cases hsnippet

end StrategyDesk.Generation
