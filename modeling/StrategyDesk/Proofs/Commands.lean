import StrategyDesk.Proofs.Fields
import StrategyDesk.Proofs.Responses

set_option autoImplicit false

namespace StrategyDesk.Service
open Json Reading Reader

def HasId (ids : PathIds) (name : String) (id : ℤ) : Prop :=
  ∃ s : String, ids.lookup name = some s ∧ MeansInt (.str s) id

/-- The operation that an endpoint is asked for, with the ids of a path and with a body that carries
a value. -/
inductive Asks (ids : PathIds) (carries : Json → Prop) : Endpoint → Operation → Prop where
  | create {ms : Members} {user : ℤ} {name : String} {description : Option Text} {g : Json}
    (hbody : carries (.obj ms)) (huser : Gives ms "user_id" MeansInt user)
    (hname : Gives ms "name" MeansName name)
    (hdescription : GivesOr ms "description" (MeansOption MeansText) none description)
    (hgraph : Gives ms "graph" MeansObject g) :
    Asks ids carries .create
      (.createStrategy (some user) (some (.plain name)) description g)
  | update {ms : Members} {id : ℤ} {name : Option String} {description : Option Text}
    {g : Option Json} (hid : HasId ids "strategy_id" id) (hbody : carries (.obj ms))
    (hname : GivesOr ms "name" (MeansOption MeansName) none name)
    (hdescription : GivesOr ms "description" (MeansOption MeansText) none description)
    (hgraph : GivesOr ms "graph" (MeansOption MeansObject) none g) :
    Asks ids carries .update (.updateStrategy id (name.map .plain) description g)
  | delete {id : ℤ} (hid : HasId ids "strategy_id" id) :
    Asks ids carries .delete (.deleteStrategy id)
  | activate {id : ℤ} (hid : HasId ids "strategy_id" id) :
    Asks ids carries .activate (.activate id)
  | deactivate {id : ℤ} (hid : HasId ids "strategy_id" id) :
    Asks ids carries .deactivate (.deactivate id)
  | kill {id : ℤ} (hid : HasId ids "strategy_id" id) : Asks ids carries .kill (.kill id)
  | unkill {id : ℤ} (hid : HasId ids "strategy_id" id) : Asks ids carries .unkill (.unkill id)
  | assign {ms : Members} {walletId strategyId : ℤ} {markets : Option (List Text)}
    {limit : Json} {paper : Bool} (hwallet : HasId ids "wallet_id" walletId)
    (hbody : carries (.obj ms)) (hstrategy : Gives ms "strategy_id" MeansInt strategyId)
    (hmarkets : GivesOr ms "markets" (MeansOption (MeansList MeansText)) none markets)
    (hlimit : GivesOr ms "max_position_usdc" (fun j k => ∃ d, MeansLimit j d ∧ .double d = k)
      (.int 100) limit)
    (hpaper : GivesOr ms "is_paper" MeansTruth false paper) :
    Asks ids carries .assign
      (.assignStrategy walletId strategyId ⟨marketsJson markets, limit, .bool paper⟩)
  | unassign {walletId strategyId : ℤ} (hwallet : HasId ids "wallet_id" walletId)
    (hstrategy : HasId ids "strategy_id" strategyId) :
    Asks ids carries .unassign (.unassignStrategy walletId strategyId)
  | deleteWallet {id : ℤ} (hid : HasId ids "wallet_id" id) :
    Asks ids carries .deleteWallet (.deleteWallet id)

/-! ### Readings of ids and bodies -/

section Bodies

variable {α : Type} {ids : PathIds} {body : Option Json} {ms : Members}

theorem pathId_eq_value_iff {name : String} {id : ℤ} :
    pathId ids name = .value id ↔ HasId ids name id := by
  simp only [pathId, under_eq_value_iff, HasId, ← reads_integer, Reads]
  cases ids.lookup name <;> simp [wrong]

theorem fromBody_eq_value_iff {read : Members → Reading α} {a : α} :
    fromBody read body = .value a ↔ ∃ ms, body = some (.obj ms) ∧ read ms = .value a := by
  simp only [fromBody, under_eq_value_iff]
  split <;> simp_all [wrong]

theorem readCreate_eq_value_iff {o : Operation} :
    readCreate ms = .value o ↔ ∃ user name description g, Gives ms "user_id" MeansInt user ∧
      Gives ms "name" MeansName name ∧
      GivesOr ms "description" (MeansOption MeansText) none description ∧
      Gives ms "graph" MeansObject g ∧
      o = .createStrategy (some user) (some (.plain name)) description g := by
  simp only [readCreate, fieldOrNull, seq_eq_value_iff, map_eq_value_iff, field_eq_value_iff,
    fieldOr_eq_value_iff, reads_integer, reads_nameText, reads_optional, reads_text,
    reads_graphObject]
  constructor
  · rintro ⟨_, g, ⟨_, t, ⟨_, n, ⟨u, hu, rfl⟩, hn, rfl⟩, ht, rfl⟩, hg, rfl⟩
    exact ⟨u, n, t, g, hu, hn, ht, hg, rfl⟩
  · rintro ⟨u, n, t, g, hu, hn, ht, hg, rfl⟩
    exact ⟨_, g, ⟨_, t, ⟨_, n, ⟨u, hu, rfl⟩, hn, rfl⟩, ht, rfl⟩, hg, rfl⟩

theorem readUpdate_eq_value_iff {make : ℤ → Operation} :
    readUpdate ms = .value make ↔ ∃ name description g,
      GivesOr ms "name" (MeansOption MeansName) none name ∧
      GivesOr ms "description" (MeansOption MeansText) none description ∧
      GivesOr ms "graph" (MeansOption MeansObject) none g ∧
      make = fun id => .updateStrategy id (name.map .plain) description g := by
  simp only [readUpdate, fieldOrNull, seq_eq_value_iff, map_eq_value_iff, fieldOr_eq_value_iff,
    reads_optional, reads_nameText, reads_text, reads_graphObject]
  constructor
  · rintro ⟨_, g, ⟨_, t, ⟨n, hn, rfl⟩, ht, rfl⟩, hg, rfl⟩
    exact ⟨n, t, g, hn, ht, hg, rfl⟩
  · rintro ⟨n, t, g, hn, ht, hg, rfl⟩
    exact ⟨_, g, ⟨_, t, ⟨n, hn, rfl⟩, ht, rfl⟩, hg, rfl⟩

theorem readAssign_eq_value_iff {make : ℤ → Operation} :
    readAssign ms = .value make ↔ ∃ strategyId markets limit paper,
      Gives ms "strategy_id" MeansInt strategyId ∧
      GivesOr ms "markets" (MeansOption (MeansList MeansText)) none markets ∧
      GivesOr ms "max_position_usdc" (fun j k => ∃ d, MeansLimit j d ∧ .double d = k) (.int 100)
        limit ∧
      GivesOr ms "is_paper" MeansTruth false paper ∧
      make = fun w => .assignStrategy w strategyId ⟨marketsJson markets, limit, .bool paper⟩ := by
  simp only [readAssign, fieldOrNull, seq_eq_value_iff, map_eq_value_iff, field_eq_value_iff,
    fieldOr_eq_value_iff, reads_integer, reads_optional, reads_list, reads_text, reads_limitNumber,
    reads_boolean, Limit.default]
  constructor
  · rintro ⟨_, p, ⟨_, l, ⟨_, m, ⟨s, hs, rfl⟩, hm, rfl⟩, hl, rfl⟩, hp, rfl⟩
    exact ⟨s, m, l, p, hs, hm, hl, hp, rfl⟩
  · rintro ⟨s, m, l, p, hs, hm, hl, hp, rfl⟩
    exact ⟨_, p, ⟨_, l, ⟨_, m, ⟨s, hs, rfl⟩, hm, rfl⟩, hl, rfl⟩, hp, rfl⟩

theorem Asks.of_command {e : Endpoint} {o : Operation}
    (h : e.command ids body = .value (.operate o)) : Asks ids (fun j => body = some j) e o := by
  cases e with
  | status | engineStatus => cases h
  | validate =>
    obtain ⟨ms, -, h⟩ := fromBody_eq_value_iff.1 h
    simp [readValidate, map_eq_value_iff] at h
  | generate =>
    obtain ⟨ms, -, h⟩ := fromBody_eq_value_iff.1 h
    simp [readGenerate, map_eq_value_iff] at h
  | create =>
    obtain ⟨o, h, ho⟩ := map_eq_value_iff.1 h
    obtain ⟨ms, hbody, h⟩ := fromBody_eq_value_iff.1 h
    obtain ⟨u, n, t, g, hu, hn, ht, hg, rfl⟩ := readCreate_eq_value_iff.1 h
    cases ho
    exact .create hbody hu hn ht hg
  | update =>
    obtain ⟨make, make', h, hb, ho⟩ := seq_eq_value_iff.1 h
    obtain ⟨id, hid, rfl⟩ := map_eq_value_iff.1 h
    obtain ⟨ms, hbody, hb⟩ := fromBody_eq_value_iff.1 hb
    obtain ⟨n, t, g, hn, ht, hg, rfl⟩ := readUpdate_eq_value_iff.1 hb
    cases ho
    exact .update (pathId_eq_value_iff.1 hid) hbody hn ht hg
  | assign =>
    obtain ⟨make, make', h, hb, ho⟩ := seq_eq_value_iff.1 h
    obtain ⟨w, hw, rfl⟩ := map_eq_value_iff.1 h
    obtain ⟨ms, hbody, hb⟩ := fromBody_eq_value_iff.1 hb
    obtain ⟨s, m, l, p, hs, hm, hl, hp, rfl⟩ := readAssign_eq_value_iff.1 hb
    cases ho
    exact .assign (pathId_eq_value_iff.1 hw) hbody hs hm hl hp
  | unassign =>
    obtain ⟨make, s, h, hs, ho⟩ := seq_eq_value_iff.1 h
    obtain ⟨w, hw, rfl⟩ := map_eq_value_iff.1 h
    cases ho
    exact .unassign (pathId_eq_value_iff.1 hw) (pathId_eq_value_iff.1 hs)
  | delete | activate | deactivate | kill | unkill | deleteWallet =>
    obtain ⟨id, hid, ho⟩ := map_eq_value_iff.1 h
    cases ho
    constructor
    exact pathId_eq_value_iff.1 hid

theorem Asks.command {e : Endpoint} {o : Operation} (h : Asks ids (fun j => body = some j) e o) :
    e.command ids body = .value (.operate o) := by
  cases h with
  | create hbody hu hn ht hg =>
    have hread := readCreate_eq_value_iff.2 ⟨_, _, _, _, hu, hn, ht, hg, rfl⟩
    exact map_eq_value_iff.2 ⟨_, fromBody_eq_value_iff.2 ⟨_, hbody, hread⟩, rfl⟩
  | update hid hbody hn ht hg =>
    have hread := readUpdate_eq_value_iff.2 ⟨_, _, _, hn, ht, hg, rfl⟩
    exact seq_eq_value_iff.2 ⟨_, _, map_eq_value_iff.2 ⟨_, pathId_eq_value_iff.2 hid, rfl⟩,
      fromBody_eq_value_iff.2 ⟨_, hbody, hread⟩, rfl⟩
  | assign hw hbody hs hm hl hp =>
    have hread := readAssign_eq_value_iff.2 ⟨_, _, _, _, hs, hm, hl, hp, rfl⟩
    exact seq_eq_value_iff.2 ⟨_, _, map_eq_value_iff.2 ⟨_, pathId_eq_value_iff.2 hw, rfl⟩,
      fromBody_eq_value_iff.2 ⟨_, hbody, hread⟩, rfl⟩
  | unassign hw hs =>
    exact seq_eq_value_iff.2 ⟨_, _, map_eq_value_iff.2 ⟨_, pathId_eq_value_iff.2 hw, rfl⟩,
      pathId_eq_value_iff.2 hs, rfl⟩
  | delete hid | activate hid | deactivate hid | kill hid | unkill hid | deleteWallet hid =>
    exact map_eq_value_iff.2 ⟨_, pathId_eq_value_iff.2 hid, rfl⟩

theorem Asks.mono {carries carries' : Json → Prop} (hle : ∀ j, carries j → carries' j)
    {e : Endpoint} {o : Operation} (h : Asks ids carries e o) : Asks ids carries' e o := by
  cases h with
  | create hbody hu hn ht hg => exact .create (hle _ hbody) hu hn ht hg
  | update hid hbody hn ht hg => exact .update hid (hle _ hbody) hn ht hg
  | assign hw hbody hs hm hl hp => exact .assign hw (hle _ hbody) hs hm hl hp
  | unassign hw hs => exact .unassign hw hs
  | delete hid | activate hid | deactivate hid | kill hid | unkill hid | deleteWallet hid =>
    constructor
    exact hid

end Bodies

def Endpoint.operates : Endpoint → Bool
  | status | engineStatus | validate | generate => false
  | _ => true

theorem Endpoint.exists_operation {ids : PathIds} {body : Option Json} {e : Endpoint} {c : Command}
    (he : e.operates = true) (h : e.command ids body = .value c) : ∃ o, c = .operate o := by
  cases e with
  | status | engineStatus | validate | generate => cases he
  | update | assign | unassign =>
    obtain ⟨_, _, hfirst, -, rfl⟩ := seq_eq_value_iff.1 h
    obtain ⟨_, -, rfl⟩ := map_eq_value_iff.1 hfirst
    exact ⟨_, rfl⟩
  | _ =>
    obtain ⟨_, -, rfl⟩ := map_eq_value_iff.1 h
    exact ⟨_, rfl⟩

/-! ### What is found at mistakes -/

def FindsShowable (height : Nat) (ds : List Detail) : Prop :=
  ∀ d ∈ ds, Response.isShowable height d.found = true

/-- A reader finds nothing that cannot be written in a value that can. -/
def IsCareful {α : Type} (height : Nat) (r : Reader α) : Prop :=
  ∀ j, Response.isShowable height j = true → FindsShowable height (r j).details

def IsPlain {α : Type} (r : Reader α) : Prop :=
  ∀ j, (∃ a, r j = .value a) ∨ ∃ m, r j = wrong m j

theorem require_plain {α : Type} (a : α) (ok : Bool) (m : Mistake) (j : Json) :
    (∃ b, require a ok m j = .value b) ∨ ∃ n, require a ok m j = wrong n j := by
  unfold require
  split
  · exact Or.inl ⟨_, rfl⟩
  · exact Or.inr ⟨_, rfl⟩

theorem isPlain_text : IsPlain text := by
  intro j
  cases j with
  | str s => exact Or.inl ⟨_, rfl⟩
  | _ => exact Or.inr ⟨_, rfl⟩

theorem isPlain_nameText : IsPlain nameText := by
  intro j
  unfold nameText textWithin
  split
  · split
    · exact Or.inr ⟨_, rfl⟩
    · split
      · exact Or.inr ⟨_, rfl⟩
      · exact Or.inl ⟨_, rfl⟩
  · exact Or.inr ⟨_, rfl⟩
  · exact Or.inr ⟨_, rfl⟩

theorem isPlain_graphObject : IsPlain graphObject := by
  intro j
  cases j with
  | obj ms => exact Or.inl ⟨_, rfl⟩
  | _ => exact Or.inr ⟨_, rfl⟩

theorem isPlain_integer : IsPlain integer := by
  intro j
  unfold integer
  split
  · exact Or.inl ⟨_, rfl⟩
  · exact Or.inl ⟨_, rfl⟩
  · split
    · exact Or.inr ⟨_, rfl⟩
    · split
      · exact Or.inr ⟨_, rfl⟩
      · exact require_plain _ _ _ _
  · split
    · exact Or.inl ⟨_, rfl⟩
    · exact Or.inr ⟨_, rfl⟩
    · exact Or.inr ⟨_, rfl⟩
  · exact Or.inr ⟨_, rfl⟩
  · exact Or.inr ⟨_, rfl⟩

theorem isPlain_boolean : IsPlain boolean := by
  intro j
  unfold boolean
  split
  · exact Or.inl ⟨_, rfl⟩
  · split
    · exact Or.inl ⟨_, rfl⟩
    · exact Or.inr ⟨_, rfl⟩
  · exact Or.inr ⟨_, rfl⟩
  · split
    · exact Or.inl ⟨_, rfl⟩
    · exact Or.inr ⟨_, rfl⟩
  · split
    · exact Or.inr ⟨_, rfl⟩
    · split
      · split
        · exact Or.inl ⟨_, rfl⟩
        · exact Or.inr ⟨_, rfl⟩
      · exact Or.inr ⟨_, rfl⟩
  · exact Or.inr ⟨_, rfl⟩

theorem isPlain_number : IsPlain number := by
  intro j
  unfold number
  split
  · exact Or.inl ⟨_, rfl⟩
  · exact Or.inl ⟨_, rfl⟩
  · split
    · exact Or.inl ⟨_, rfl⟩
    · exact Or.inr ⟨_, rfl⟩
  · split
    · exact Or.inl ⟨_, rfl⟩
    · exact Or.inr ⟨_, rfl⟩
  · exact Or.inr ⟨_, rfl⟩
  · exact Or.inr ⟨_, rfl⟩

theorem isPlain_limitNumber : IsPlain limitNumber := by
  intro j
  rcases isPlain_number j with ⟨d, hd⟩ | ⟨m, hm⟩
  · simp only [limitNumber, numberBetween, hd]
    split
    · exact Or.inr ⟨_, rfl⟩
    · unfold require
      split
      · exact Or.inl ⟨_, rfl⟩
      · exact Or.inr ⟨_, rfl⟩
  · simp only [limitNumber, numberBetween, hm, wrong]
    exact Or.inr ⟨m, rfl⟩

section Careful

variable {α : Type} {height : Nat} {r : Reader α}

theorem FindsShowable.nil : FindsShowable height [] := fun _ hd => absurd hd List.not_mem_nil

theorem FindsShowable.single {d : Detail} (h : Response.isShowable height d.found = true) :
    FindsShowable height [d] := by
  intro e he
  rw [List.mem_singleton.1 he]
  exact h

theorem FindsShowable.append {ds es : List Detail} (hd : FindsShowable height ds)
    (he : FindsShowable height es) : FindsShowable height (ds ++ es) :=
  fun d h => (List.mem_append.1 h).elim (hd d) (he d)

theorem FindsShowable.under {ds : List Detail} (h : FindsShowable height ds) (s : Step) :
    FindsShowable height (ds.map fun d => { d with place := s :: d.place }) := by
  intro d hd
  obtain ⟨e, he, rfl⟩ := List.mem_map.1 hd
  exact h e he

theorem IsPlain.careful (h : IsPlain r) : IsCareful height r := by
  intro j hj
  rcases h j with ⟨a, ha⟩ | ⟨m, hm⟩
  · rw [ha]
    exact .nil
  · rw [hm]
    exact .single hj

theorem IsCareful.optional (h : IsCareful height r) : IsCareful height (optional r) := by
  intro j hj
  by_cases hnull : j = .null
  · subst hnull
    exact .nil
  · rw [details_optional hnull]
    exact h j hj

theorem IsCareful.list (h : IsCareful height r) : IsCareful height (list r) := by
  intro j hj
  have hitems : ∀ (js : List Json) (i : Nat), (∀ j ∈ js, Response.isShowable height j = true) →
      FindsShowable height (itemsFrom r i js).details := by
    intro js
    induction js with
    | nil => exact fun _ _ => .nil
    | cons j js ih =>
      intro i hjs
      simp only [itemsFrom, details_seq, details_map, details_under]
      exact ((h j (hjs j List.mem_cons_self)).under _).append
        (ih (i + 1) fun k hk => hjs k (List.mem_cons_of_mem j hk))
  cases j with
  | arr js => exact hitems js 0 fun k hk => Response.isShowable_item hj hk
  | _ => exact .single hj

variable {ms : Members} (hms : Response.isShowable height (.obj ms) = true)
include hms

theorem IsCareful.field (h : IsCareful height r) (key : String) :
    FindsShowable height (field ms key r).details := by
  rw [Reader.field, details_under]
  refine FindsShowable.under ?_ _
  cases hkey : find? ms key with
  | none => exact .single hms
  | some j => exact h j (Response.isShowable_member hms hkey)

theorem IsCareful.fieldOr (h : IsCareful height r) (key : String) (default : α) :
    FindsShowable height (fieldOr ms key default r).details := by
  rw [Reader.fieldOr]
  cases hkey : find? ms key with
  | none => exact .nil
  | some j =>
    simp only [details_under]
    exact (h j (Response.isShowable_member hms hkey)).under _

end Careful

section Endpoints

variable {height : Nat} (hpos : 0 < height)
include hpos

theorem findsShowable_pathId (ids : PathIds) (name : String) :
    FindsShowable height (pathId ids name).details := by
  simp only [pathId, details_under]
  refine (FindsShowable.under ?_ _).under _
  split
  · exact isPlain_integer.careful _ (Response.isShowable_iff.2 ⟨hpos, rfl, rfl⟩)
  · exact .single (Response.isShowable_iff.2 ⟨hpos, rfl, rfl⟩)

theorem findsShowable_fromBody {α : Type} {read : Members → Reading α} {body : Option Json}
    (hbody : ∀ j, body = some j → Response.isShowable height j = true)
    (hread : ∀ ms, Response.isShowable height (.obj ms) = true →
      FindsShowable height (read ms).details) :
    FindsShowable height (fromBody read body).details := by
  simp only [fromBody, details_under]
  refine FindsShowable.under ?_ _
  split
  · exact .single (Response.isShowable_iff.2 ⟨hpos, rfl, rfl⟩)
  · exact hread _ (hbody _ rfl)
  · exact .single (hbody _ rfl)

theorem Endpoint.findsShowable_command {e : Endpoint} (ids : PathIds) {body : Option Json}
    (hbody : ∀ j, body = some j → Response.isShowable height j = true) (he : e.operates = true) :
    FindsShowable height (e.command ids body).details := by
  cases e with
  | status | engineStatus | validate | generate => cases he
  | create =>
    simp only [command, details_map]
    refine findsShowable_fromBody hpos hbody fun ms hms => ?_
    simp only [readCreate, fieldOrNull, details_seq, details_map]
    exact (((isPlain_integer.careful.field hms _).append
      (isPlain_nameText.careful.field hms _)).append
      (isPlain_text.careful.optional.fieldOr hms _ _)).append
      (isPlain_graphObject.careful.field hms _)
  | update =>
    simp only [command, details_seq, details_map]
    refine (findsShowable_pathId hpos _ _).append
      (findsShowable_fromBody hpos hbody fun ms hms => ?_)
    simp only [readUpdate, fieldOrNull, details_seq, details_map]
    exact ((isPlain_nameText.careful.optional.fieldOr hms _ _).append
      (isPlain_text.careful.optional.fieldOr hms _ _)).append
      (isPlain_graphObject.careful.optional.fieldOr hms _ _)
  | assign =>
    simp only [command, details_seq, details_map]
    refine (findsShowable_pathId hpos _ _).append
      (findsShowable_fromBody hpos hbody fun ms hms => ?_)
    simp only [readAssign, fieldOrNull, details_seq, details_map]
    exact (((isPlain_integer.careful.field hms _).append
      (isPlain_text.careful.list.optional.fieldOr hms _ _)).append
      (isPlain_limitNumber.careful.fieldOr hms _ _)).append
      (isPlain_boolean.careful.fieldOr hms _ _)
  | unassign =>
    simp only [command, details_seq, details_map]
    exact (findsShowable_pathId hpos _ _).append (findsShowable_pathId hpos _ _)
  | _ =>
    simp only [command, details_map]
    exact findsShowable_pathId hpos _ _

end Endpoints

end StrategyDesk.Service
