import StrategyDesk.Flow.Model

set_option autoImplicit false

namespace StrategyDesk
open Json Reading Reader

/-! ### The order of places -/

namespace Flow

def schema : List String :=
  ["nodes", "edges", "id", "type", "data", "position", "source", "target", "x", "y"]

end Flow

def Step.rank : Step → Nat
  | .key name => Flow.schema.idxOf name
  | .index i => i

/-- Whether the first step at which two places differ is the earlier one in the first place. -/
def Before (p q : List Step) : Prop := p.map Step.rank < q.map Step.rank

theorem before_of_rank_lt {s t : Step} (h : s.rank < t.rank) (p q : List Step) :
    Before (s :: p) (t :: q) := List.cons_lt_cons_iff.2 (Or.inl h)

theorem before_cons_iff {s : Step} {p q : List Step} :
    Before (s :: p) (s :: q) ↔ Before p q := by
  simp [Before]

/-- The text of a path: it starts with a name, further names stand behind points and indices in
brackets, and the path without a step is that of the graph. -/
inductive IsPath : List Step → String → Prop where
  | graph : IsPath [] "graph"
  | name (k : String) : IsPath [.key k] k
  | member {p : List Step} {t : String} (hp : p ≠ []) (h : IsPath p t) (k : String) :
    IsPath (p ++ [.key k]) (t ++ "." ++ k)
  | item {p : List Step} {t : String} (hp : p ≠ []) (h : IsPath p t) (i : Nat) :
    IsPath (p ++ [.index i]) (t ++ "[" ++ toString i ++ "]")

/-! ### Flaws -/

/-- What may be wrong with a value, and where in it. -/
abbrev Flaws := Json → List Step → Mistake → Prop

inductive TextFlaw : Flaws where
  | notText {j : Json} (h : ∀ s, j ≠ .str s) : TextFlaw j [] .notText

inductive ObjectFlaw : Flaws where
  | notObject {j : Json} (h : ∀ ms, j ≠ .obj ms) : ObjectFlaw j [] .notObject

inductive NumberFlaw : Flaws where
  | notNumber {j : Json} {d : Detail} (h : number j = .faulty d []) : NumberFlaw j [] d.mistake

inductive NullableFlaw (flaw : Flaws) : Flaws where
  | present {j : Json} {p : List Step} {m : Mistake} (hj : j ≠ .null) (h : flaw j p m) :
    NullableFlaw flaw j p m

inductive ListFlaw (flaw : Flaws) : Flaws where
  | notList {j : Json} (h : ∀ js, j ≠ .arr js) : ListFlaw flaw j [] .notList
  | item {js : List Json} {i : Nat} {j : Json} {p : List Step} {m : Mistake}
    (hj : js[i]? = some j) (h : flaw j p m) : ListFlaw flaw (.arr js) (.index i :: p) m

inductive MemberFlaw (flaw : Flaws) (ms : Members) (key : String) :
    List Step → Mistake → Prop where
  | inside {j : Json} {p : List Step} {m : Mistake} (hj : find? ms key = some j)
    (h : flaw j p m) : MemberFlaw flaw ms key (.key key :: p) m

inductive RequiredFlaw (flaw : Flaws) (ms : Members) (key : String) :
    List Step → Mistake → Prop where
  | absent (h : find? ms key = none) : RequiredFlaw flaw ms key [.key key] .missing
  | inside {j : Json} {p : List Step} {m : Mistake} (hj : find? ms key = some j)
    (h : flaw j p m) : RequiredFlaw flaw ms key (.key key :: p) m

/-- A flaw of a value that has to be an object whose members have flaws of their own. -/
inductive RecordFlaw (name : String) (members : Members → List Step → Mistake → Prop) : Flaws where
  | notObject {j : Json} (h : ∀ ms, j ≠ .obj ms) : RecordFlaw name members j [] (.notRecord name)
  | inside {ms : Members} {p : List Step} {m : Mistake} (h : members ms p m) :
    RecordFlaw name members (.obj ms) p m

/-- A flaw of members that have to have whole names. A torn name is the only flaw of its members. -/
inductive NamedFlaw (members : Members → List Step → Mistake → Prop) (ms : Members) :
    List Step → Mistake → Prop where
  | torn {x : Text × Json} (hx : x ∈ ms) (htorn : x.1.isTorn = true) :
    NamedFlaw members ms [] .notUnicode
  | inside {p : List Step} {m : Mistake} (hwhole : ∀ x ∈ ms, x.1.isTorn = false)
    (h : members ms p m) : NamedFlaw members ms p m

def Position.Flaw : Flaws :=
  RecordFlaw "Position" fun ms p m =>
    RequiredFlaw NumberFlaw ms "x" p m ∨ RequiredFlaw NumberFlaw ms "y" p m

def Node.Flaw : Flaws :=
  RecordFlaw "GraphNode" <| NamedFlaw fun ms p m =>
    RequiredFlaw TextFlaw ms "id" p m ∨ RequiredFlaw TextFlaw ms "type" p m ∨
      MemberFlaw ObjectFlaw ms "data" p m ∨
      MemberFlaw (NullableFlaw Position.Flaw) ms "position" p m

def Edge.Flaw : Flaws :=
  RecordFlaw "GraphEdge" <| NamedFlaw fun ms p m =>
    RequiredFlaw TextFlaw ms "source" p m ∨ RequiredFlaw TextFlaw ms "target" p m

def Flow.Flaw (ms : Members) (p : List Step) (m : Mistake) : Prop :=
  MemberFlaw (ListFlaw Node.Flaw) ms "nodes" p m ∨ MemberFlaw (ListFlaw Edge.Flaw) ms "edges" p m

/-! ### Values without flaws -/

theorem number_faulty {j : Json} {d : Detail} {ds : List Detail} (h : number j = .faulty d ds) :
    d.place = [] ∧ ds = [] := by
  unfold number at h
  split at h
  · cases h
  · cases h
  · split at h
    · cases h
    · cases h
      exact ⟨rfl, rfl⟩
  · split at h
    · cases h
    · cases h
      exact ⟨rfl, rfl⟩
  · cases h
    exact ⟨rfl, rfl⟩
  · cases h
    exact ⟨rfl, rfl⟩

def Free (flaw : Flaws) (j : Json) : Prop := ∀ p m, ¬ flaw j p m

section Free

variable {flaw : Flaws}

theorem free_text_iff {j : Json} : Free TextFlaw j ↔ ∃ s, j = .str s := by
  constructor
  · intro h
    by_cases hj : ∃ s, j = .str s
    · exact hj
    · exact absurd (.notText fun s hs => hj ⟨s, hs⟩) (h _ _)
  · rintro ⟨s, rfl⟩ p m h
    cases h with
    | notText h => exact h s rfl

theorem free_object_iff {j : Json} : Free ObjectFlaw j ↔ ∃ ms, j = .obj ms := by
  constructor
  · intro h
    by_cases hj : ∃ ms, j = .obj ms
    · exact hj
    · exact absurd (.notObject fun ms hms => hj ⟨ms, hms⟩) (h _ _)
  · rintro ⟨ms, rfl⟩ p m h
    cases h with
    | notObject h => exact h ms rfl

theorem free_number_iff {j : Json} : Free NumberFlaw j ↔ ∃ d, number j = .value d := by
  constructor
  · intro h
    cases hj : number j with
    | value d => exact ⟨d, rfl⟩
    | faulty d ds =>
      obtain ⟨-, rfl⟩ := number_faulty hj
      exact absurd (.notNumber hj) (h _ _)
  · rintro ⟨d, hd⟩ p m h
    cases h with
    | notNumber h => simp [hd] at h

theorem free_nullable_iff {j : Json} :
    Free (NullableFlaw flaw) j ↔ j = .null ∨ Free flaw j := by
  constructor
  · intro h
    by_cases hj : j = .null
    · exact Or.inl hj
    · exact Or.inr fun p m hm => h p m (.present hj hm)
  · intro h p m hm
    cases hm with
    | present hj hm => exact h.elim hj fun h => h p m hm

theorem free_list_iff {j : Json} :
    Free (ListFlaw flaw) j ↔ ∃ js, j = .arr js ∧ ∀ i ∈ js, Free flaw i := by
  constructor
  · intro h
    by_cases hj : ∃ js, j = .arr js
    · obtain ⟨js, rfl⟩ := hj
      refine ⟨js, rfl, fun i hi p m hm => ?_⟩
      obtain ⟨k, hk⟩ := List.getElem?_of_mem hi
      exact h _ _ (.item hk hm)
    · exact absurd (.notList fun js hjs => hj ⟨js, hjs⟩) (h _ _)
  · rintro ⟨js, rfl, hjs⟩ p m h
    cases h with
    | notList h => exact h js rfl
    | item hj h => exact hjs _ (List.mem_of_getElem? hj) _ _ h

theorem free_record_iff {name : String} {members : Members → List Step → Mistake → Prop}
    {j : Json} :
    Free (RecordFlaw name members) j ↔ ∃ ms, j = .obj ms ∧ ∀ p m, ¬ members ms p m := by
  constructor
  · intro h
    by_cases hj : ∃ ms, j = .obj ms
    · obtain ⟨ms, rfl⟩ := hj
      exact ⟨ms, rfl, fun p m hm => h p m (.inside hm)⟩
    · exact absurd (.notObject fun ms hms => hj ⟨ms, hms⟩) (h _ _)
  · rintro ⟨ms, rfl, hms⟩ p m h
    cases h with
    | notObject h => exact h ms rfl
    | inside h => exact hms p m h

theorem not_namedFlaw_iff {members : Members → List Step → Mistake → Prop} {ms : Members} :
    (∀ p m, ¬ NamedFlaw members ms p m) ↔
      (∀ x ∈ ms, x.1.isTorn = false) ∧ ∀ p m, ¬ members ms p m := by
  constructor
  · intro h
    have hwhole : ∀ x ∈ ms, x.1.isTorn = false := fun x hx =>
      Bool.eq_false_iff.2 fun htorn => h _ _ (.torn hx htorn)
    exact ⟨hwhole, fun p m hm => h p m (.inside hwhole hm)⟩
  · rintro ⟨hwhole, hnone⟩ p m hm
    cases hm with
    | torn hx htorn =>
      rw [hwhole _ hx] at htorn
      cases htorn
    | inside _ hm => exact hnone p m hm

theorem not_memberFlaw_iff {ms : Members} {key : String} :
    (∀ p m, ¬ MemberFlaw flaw ms key p m) ↔ ∀ j, find? ms key = some j → Free flaw j := by
  constructor
  · exact fun h j hj p m hm => h _ _ (.inside hj hm)
  · intro h p m hm
    cases hm with
    | inside hj hm => exact h _ hj _ _ hm

theorem not_requiredFlaw_iff {ms : Members} {key : String} :
    (∀ p m, ¬ RequiredFlaw flaw ms key p m) ↔ ∃ j, find? ms key = some j ∧ Free flaw j := by
  constructor
  · intro h
    cases hkey : find? ms key with
    | none => exact absurd (.absent hkey) (h _ _)
    | some j => exact ⟨j, rfl, fun p m hm => h _ _ (.inside hkey hm)⟩
  · rintro ⟨j, hj, hfree⟩ p m hm
    cases hm with
    | absent h => simp [hj] at h
    | inside hj' hm =>
      rw [hj, Option.some.injEq] at hj'
      exact hfree _ _ (hj' ▸ hm)

theorem not_requiredText_iff {ms : Members} {key : String} :
    (∀ p m, ¬ RequiredFlaw TextFlaw ms key p m) ↔ ∃ s, find? ms key = some (.str s) := by
  rw [not_requiredFlaw_iff]
  constructor
  · rintro ⟨j, hj, hfree⟩
    obtain ⟨s, rfl⟩ := free_text_iff.1 hfree
    exact ⟨s, hj⟩
  · rintro ⟨s, hs⟩
    exact ⟨_, hs, free_text_iff.2 ⟨s, rfl⟩⟩

end Free

/-! ### Readings that list flaws -/

/-- The mistakes that were met are the flaws, in the order of their places. -/
structure Lists (ds : List Detail) (flaw : List Step → Mistake → Prop) : Prop where
  exact : ∀ p m, flaw p m ↔ ∃ d ∈ ds, d.place = p ∧ d.mistake = m
  sorted : ds.Pairwise fun d e => Before d.place e.place

namespace Lists

variable {ds es : List Detail} {F G : List Step → Mistake → Prop}

theorem congr (h : Lists ds F) (hFG : ∀ p m, G p m ↔ F p m) : Lists ds G where
  exact p m := (hFG p m).trans (h.exact p m)
  sorted := h.sorted

theorem nil (h : ∀ p m, ¬ F p m) : Lists [] F where
  exact p m := by simp [h p m]
  sorted := .nil

theorem single {d : Detail} (h : ∀ p m, F p m ↔ p = d.place ∧ m = d.mistake) : Lists [d] F where
  exact p m := by simp [h p m, eq_comm]
  sorted := List.pairwise_singleton _ _

theorem wrong {m : Mistake} {j : Json} (h : F [] m)
    (honly : ∀ p n, F p n → p = [] ∧ n = m) : Lists [⟨[], m, j⟩] F := by
  refine single fun p n => ⟨honly p n, ?_⟩
  rintro ⟨rfl, rfl⟩
  exact h

theorem append (hF : Lists ds F) (hG : Lists es G)
    (hlt : ∀ p m q n, F p m → G q n → Before p q) :
    Lists (ds ++ es) fun p m => F p m ∨ G p m where
  exact p m := by
    rw [hF.exact, hG.exact]
    simp only [List.mem_append, or_and_right, exists_or]
  sorted := by
    refine List.pairwise_append.2 ⟨hF.sorted, hG.sorted, fun d hd e he => ?_⟩
    exact hlt _ _ _ _ ((hF.exact _ _).2 ⟨d, hd, rfl, rfl⟩) ((hG.exact _ _).2 ⟨e, he, rfl, rfl⟩)

theorem under (hF : Lists ds F) (s : Step) :
    Lists (ds.map fun d => { d with place := s :: d.place })
      fun p m => ∃ q, p = s :: q ∧ F q m where
  exact p m := by
    constructor
    · rintro ⟨q, rfl, hq⟩
      obtain ⟨d, hd, rfl, rfl⟩ := (hF.exact q m).1 hq
      exact ⟨_, List.mem_map_of_mem hd, rfl, rfl⟩
    · rintro ⟨e, he, rfl, rfl⟩
      obtain ⟨d, hd, rfl⟩ := List.mem_map.1 he
      exact ⟨d.place, rfl, (hF.exact _ _).2 ⟨d, hd, rfl, rfl⟩⟩
  sorted := by
    refine List.pairwise_map.2 (hF.sorted.imp fun h => ?_)
    exact before_cons_iff.2 h

end Lists

/-! ### Members that are read in turn -/

structure Part where
  key : String
  details : List Detail
  flaw : List Step → Mistake → Prop

/-- The flaws of a part are listed, and all of them stand under its name. -/
structure Part.IsListed (x : Part) : Prop where
  lists : Lists x.details x.flaw
  under {p : List Step} {m : Mistake} : x.flaw p m → ∃ q, p = .key x.key :: q

theorem Lists.parts (xs : List Part) {keys : List String} (hkeys : xs.map Part.key = keys)
    (hord : keys.Pairwise fun k l => (Step.key k).rank < (Step.key l).rank)
    (h : ∀ x ∈ xs, x.IsListed) :
    Lists (xs.flatMap Part.details) fun p m => ∃ x ∈ xs, x.flaw p m := by
  subst hkeys
  induction xs with
  | nil => exact Lists.nil (by simp)
  | cons x xs ih =>
    obtain ⟨hfirst, hrest⟩ := List.pairwise_cons.1 hord
    have hx := h x List.mem_cons_self
    have hxs := ih (fun y hy => h y (List.mem_cons_of_mem x hy)) hrest
    refine (hx.lists.append hxs ?_).congr fun p m => by simp
    -- Two flaws of different parts differ in the first step already.
    rintro p m q n hp ⟨y, hy, hq⟩
    obtain ⟨p, rfl⟩ := hx.under hp
    obtain ⟨q, rfl⟩ := (h y (List.mem_cons_of_mem x hy)).under hq
    exact before_of_rank_lt (hfirst _ (List.mem_map_of_mem hy)) p q

/-! ### The readers of flows -/

def Judges {α : Type} (r : Reader α) (flaw : Flaws) : Prop := ∀ j, Lists (r j).details (flaw j)

section Members

variable {α : Type} {r : Reader α} {flaw : Flaws}

theorem Judges.field (h : Judges r flaw) (ms : Members) (key : String) :
    (Part.mk key (field ms key r).details (RequiredFlaw flaw ms key)).IsListed where
  lists := by
    simp only [Reader.field, details_under]
    cases hkey : find? ms key with
    | none =>
      refine Lists.single fun p m => ⟨fun h => ?_, ?_⟩
      · cases h with
        | absent => exact ⟨rfl, rfl⟩
        | inside hj => simp [hkey] at hj
      · rintro ⟨rfl, rfl⟩
        exact .absent hkey
    | some j =>
      refine ((h j).under (.key key)).congr fun p m => ⟨fun h => ?_, ?_⟩
      · cases h with
        | absent h => simp [hkey] at h
        | inside hj h =>
          rw [hkey, Option.some.injEq] at hj
          exact ⟨_, rfl, hj ▸ h⟩
      · rintro ⟨q, rfl, hq⟩
        exact .inside hkey hq
  under h := by cases h <;> exact ⟨_, rfl⟩

theorem Judges.fieldOr (h : Judges r flaw) (ms : Members) (key : String) (default : α) :
    (Part.mk key (fieldOr ms key default r).details (MemberFlaw flaw ms key)).IsListed where
  lists := by
    simp only [Reader.fieldOr]
    cases hkey : find? ms key with
    | none => exact Lists.nil (not_memberFlaw_iff.2 (by simp [hkey]))
    | some j =>
      simp only [details_under]
      refine ((h j).under (.key key)).congr fun p m => ⟨fun h => ?_, ?_⟩
      · cases h with
        | inside hj h =>
          rw [hkey, Option.some.injEq] at hj
          exact ⟨_, rfl, hj ▸ h⟩
      · rintro ⟨q, rfl, hq⟩
        exact .inside hkey hq
  under h := by
    cases h with
    | inside => exact ⟨_, rfl⟩

theorem Judges.optional (h : Judges r flaw) : Judges (optional r) (NullableFlaw flaw) := by
  intro j
  by_cases hj : j = .null
  · subst hj
    exact Lists.nil (free_nullable_iff.2 (Or.inl rfl))
  · rw [details_optional hj]
    refine (h j).congr fun p m => ⟨fun h => ?_, .present hj⟩
    cases h with
    | present _ h => exact h

end Members

theorem judges_text : Judges text TextFlaw := by
  intro j
  by_cases hj : ∃ s, j = .str s
  · obtain ⟨s, rfl⟩ := hj
    exact Lists.nil (free_text_iff.2 ⟨s, rfl⟩)
  · have hwrong : (text j).details = [⟨[], .notText, j⟩] := by
      cases j with
      | str s => exact absurd ⟨s, rfl⟩ hj
      | _ => rfl
    rw [hwrong]
    refine Lists.wrong (.notText fun s hs => hj ⟨s, hs⟩) fun p m h => ?_
    cases h
    exact ⟨rfl, rfl⟩

theorem judges_object : Judges object ObjectFlaw := by
  intro j
  by_cases hj : ∃ ms, j = .obj ms
  · obtain ⟨ms, rfl⟩ := hj
    exact Lists.nil (free_object_iff.2 ⟨ms, rfl⟩)
  · have hwrong : (object j).details = [⟨[], .notObject, j⟩] := by
      cases j with
      | obj ms => exact absurd ⟨ms, rfl⟩ hj
      | _ => rfl
    rw [hwrong]
    refine Lists.wrong (.notObject fun ms hms => hj ⟨ms, hms⟩) fun p m h => ?_
    cases h
    exact ⟨rfl, rfl⟩

theorem judges_number : Judges number NumberFlaw := by
  intro j
  cases hj : number j with
  | value x => exact Lists.nil (free_number_iff.2 ⟨x, hj⟩)
  | faulty d ds =>
    obtain ⟨hplace, rfl⟩ := number_faulty hj
    refine Lists.single fun p m => ⟨fun h => ?_, ?_⟩
    · cases h with
      | notNumber h =>
        rw [hj] at h
        cases h
        exact ⟨hplace.symm, rfl⟩
    · rintro ⟨rfl, rfl⟩
      rw [hplace]
      exact .notNumber hj

section Lists

variable {α : Type} {r : Reader α} {flaw : Flaws}

theorem Judges.itemsFrom (h : Judges r flaw) (i : Nat) (js : List Json) :
    Lists (itemsFrom r i js).details fun p m =>
      ∃ k j q, js[k]? = some j ∧ p = .index (i + k) :: q ∧ flaw j q m := by
  induction js generalizing i with
  | nil => exact Lists.nil (by simp)
  | cons j js ih =>
    simp only [Reader.itemsFrom, details_seq, details_map, details_under]
    refine (((h j).under (.index i)).append (ih (i + 1)) ?_).congr fun p m => ⟨?_, ?_⟩
    · rintro p m q n ⟨p, rfl, -⟩ ⟨k, j, q, -, rfl, -⟩
      refine before_of_rank_lt ?_ p q
      simp only [Step.rank]
      omega
    · rintro ⟨k, j', q, hj, rfl, hq⟩
      cases k with
      | zero =>
        cases hj
        exact Or.inl ⟨q, rfl, hq⟩
      | succ k => exact Or.inr ⟨k, j', q, hj, by rw [Nat.add_right_comm, Nat.add_assoc], hq⟩
    · rintro (⟨q, rfl, hq⟩ | ⟨k, j', q, hj, rfl, hq⟩)
      · exact ⟨0, j, q, rfl, rfl, hq⟩
      · exact ⟨k + 1, j', q, hj, by rw [Nat.add_right_comm, Nat.add_assoc], hq⟩

theorem Judges.list (h : Judges r flaw) : Judges (list r) (ListFlaw flaw) := by
  intro j
  by_cases hj : ∃ js, j = .arr js
  · obtain ⟨js, rfl⟩ := hj
    refine (h.itemsFrom 0 js).congr fun p m => ⟨fun h => ?_, ?_⟩
    · cases h with
      | notList h => exact absurd rfl (h js)
      | item hj h => exact ⟨_, _, _, hj, by rw [Nat.zero_add], h⟩
    · rintro ⟨k, j, q, hj, rfl, hq⟩
      rw [Nat.zero_add]
      exact .item hj hq
  · have hwrong : (Reader.list r j).details = [⟨[], .notList, j⟩] := by
      cases j with
      | arr js => exact absurd ⟨js, rfl⟩ hj
      | _ => rfl
    rw [hwrong]
    refine Lists.wrong (.notList fun js hjs => hj ⟨js, hjs⟩) fun p m h => ?_
    cases h with
    | notList => exact ⟨rfl, rfl⟩
    | item => exact absurd ⟨_, rfl⟩ hj

end Lists

theorem Judges.record {α : Type} {r : Reader α} {name : String}
    {members : Members → List Step → Mistake → Prop}
    (hobj : ∀ ms, Lists (r (.obj ms)).details (members ms))
    (hother : ∀ j, (∀ ms, j ≠ .obj ms) → r j = Reading.wrong (.notRecord name) j) :
    Judges r (RecordFlaw name members) := by
  intro j
  by_cases hj : ∃ ms, j = .obj ms
  · obtain ⟨ms, rfl⟩ := hj
    refine (hobj ms).congr fun p m => ⟨fun h => ?_, .inside⟩
    cases h with
    | notObject h => exact absurd rfl (h ms)
    | inside h => exact h
  · have hne : ∀ ms, j ≠ .obj ms := fun ms hms => hj ⟨ms, hms⟩
    rw [hother j hne]
    refine Lists.wrong (.notObject hne) fun p m h => ?_
    cases h with
    | notObject => exact ⟨rfl, rfl⟩
    | inside => exact absurd ⟨_, rfl⟩ hj

theorem Lists.named {α : Type} {r : Reading α} {members : Members → List Step → Mistake → Prop}
    {ms : Members} (h : Lists r.details (members ms)) :
    Lists (Reader.named ms r).details (NamedFlaw members ms) := by
  by_cases hwhole : ∀ x ∈ ms, x.1.isTorn = false
  · rw [named_of_whole hwhole]
    refine h.congr fun p m => ⟨fun hm => ?_, .inside hwhole⟩
    cases hm with
    | torn hx htorn =>
      rw [hwhole _ hx] at htorn
      cases htorn
    | inside _ hm => exact hm
  · cases hfind : ms.find? fun x => x.1.isTorn with
    | none =>
      exact absurd (fun x hx => Bool.eq_false_iff.2 (List.find?_eq_none.1 hfind x hx)) hwhole
    | some x =>
      have htorn := List.find?_some hfind
      rw [Reader.named, hfind]
      refine Lists.wrong (.torn (List.mem_of_find?_eq_some hfind) htorn) fun p m hm => ?_
      cases hm with
      | torn => exact ⟨rfl, rfl⟩
      | inside h => exact absurd h hwhole

theorem judges_position : Judges Position.read Position.Flaw := by
  refine Judges.record (fun ms => ?_) (fun j hj => ?_)
  · have hparts := Lists.parts [⟨"x", _, _⟩, ⟨"y", _, _⟩] rfl
      (by decide : ["x", "y"].Pairwise fun k l => (Step.key k).rank < (Step.key l).rank)
      (by simpa using ⟨judges_number.field ms "x", judges_number.field ms "y"⟩)
    simpa [Position.read] using hparts
  · cases j with
    | obj ms => exact absurd rfl (hj ms)
    | _ => rfl

theorem judges_node : Judges Node.read Node.Flaw := by
  refine Judges.record (fun ms => Lists.named ?_) (fun j hj => ?_)
  · have hparts := Lists.parts
      [⟨"id", _, _⟩, ⟨"type", _, _⟩, ⟨"data", _, _⟩, ⟨"position", _, _⟩] rfl
      (by decide : ["id", "type", "data", "position"].Pairwise
        fun k l => (Step.key k).rank < (Step.key l).rank)
      (by simpa using ⟨judges_text.field ms "id", judges_text.field ms "type",
        judges_object.fieldOr ms "data" [], judges_position.optional.fieldOr ms "position" none⟩)
    simpa [fieldOrNull] using hparts
  · cases j with
    | obj ms => exact absurd rfl (hj ms)
    | _ => rfl

theorem judges_edge : Judges Edge.read Edge.Flaw := by
  refine Judges.record (fun ms => Lists.named ?_) (fun j hj => ?_)
  · have hparts := Lists.parts [⟨"source", _, _⟩, ⟨"target", _, _⟩] rfl
      (by decide : ["source", "target"].Pairwise
        fun k l => (Step.key k).rank < (Step.key l).rank)
      (by simpa using ⟨judges_text.field ms "source", judges_text.field ms "target"⟩)
    simpa using hparts
  · cases j with
    | obj ms => exact absurd rfl (hj ms)
    | _ => rfl

theorem Flow.lists_read {ms : Members} (hmode : look ms "mode" = .str "node") :
    Lists (Flow.read (.obj ms)).details (Flow.Flaw ms) := by
  have hmode : (fieldOr ms "mode" () (keyword "node")).details = [] := by
    have hfind : find? ms "mode" = some (.str "node") := by
      cases h : find? ms "mode" with
      | none => simp [look, h] at hmode
      | some j => simpa [look, h] using hmode
    simp [fieldOr, hfind, keyword, Reading.require]
  have hparts := Lists.parts [⟨"nodes", _, _⟩, ⟨"edges", _, _⟩] rfl
    (by decide : ["nodes", "edges"].Pairwise fun k l => (Step.key k).rank < (Step.key l).rank)
    (by simpa using
      ⟨judges_node.list.fieldOr ms "nodes" [], judges_edge.list.fieldOr ms "edges" []⟩)
  have hdetails : (Flow.read (.obj ms)).details =
      (fieldOr ms "nodes" [] (list Node.read)).details ++
        (fieldOr ms "edges" [] (list Edge.read)).details := by
    simp [Flow.read, hmode]
  rw [hdetails]
  refine Lists.congr ?_ fun p m => by rw [Flow.Flaw]
  simpa using hparts

/-! ### Flows without flaws -/

def Position.IsShaped (j : Json) : Prop :=
  ∃ ms, j = .obj ms ∧ (∃ x d, find? ms "x" = some x ∧ number x = .value d) ∧
    ∃ y d, find? ms "y" = some y ∧ number y = .value d

def Node.IsShaped (j : Json) : Prop :=
  ∃ ms, j = .obj ms ∧ (∀ x ∈ ms, x.1.isTorn = false) ∧ (∃ id, find? ms "id" = some (.str id)) ∧
    (∃ type, find? ms "type" = some (.str type)) ∧
    (∀ data, find? ms "data" = some data → ∃ settings, data = .obj settings) ∧
    ∀ position, find? ms "position" = some position →
      position = .null ∨ Position.IsShaped position

def Edge.IsShaped (j : Json) : Prop :=
  ∃ ms, j = .obj ms ∧ (∀ x ∈ ms, x.1.isTorn = false) ∧
    (∃ source, find? ms "source" = some (.str source)) ∧
      ∃ target, find? ms "target" = some (.str target)

/-- The members of a graph that is a flow by its shape. -/
def Flow.IsShaped (ms : Members) : Prop :=
  (∀ nodes, find? ms "nodes" = some nodes →
    ∃ js, nodes = .arr js ∧ ∀ j ∈ js, Node.IsShaped j) ∧
  ∀ edges, find? ms "edges" = some edges → ∃ js, edges = .arr js ∧ ∀ j ∈ js, Edge.IsShaped j

theorem Position.isShaped_iff {j : Json} : Position.IsShaped j ↔ Free Position.Flaw j := by
  simp only [Position.IsShaped, Position.Flaw, free_record_iff, not_or, forall_and,
    not_requiredFlaw_iff, free_number_iff, exists_and_left]

theorem Node.isShaped_iff {j : Json} : Node.IsShaped j ↔ Free Node.Flaw j := by
  simp only [Node.IsShaped, Node.Flaw, free_record_iff, not_namedFlaw_iff, not_or, forall_and,
    not_requiredText_iff, not_memberFlaw_iff, free_object_iff, free_nullable_iff,
    Position.isShaped_iff]

theorem Edge.isShaped_iff {j : Json} : Edge.IsShaped j ↔ Free Edge.Flaw j := by
  simp only [Edge.IsShaped, Edge.Flaw, free_record_iff, not_namedFlaw_iff, not_or, forall_and,
    not_requiredText_iff]

theorem Flow.isShaped_iff {ms : Members} : Flow.IsShaped ms ↔ ∀ p m, ¬ Flow.Flaw ms p m := by
  simp only [Flow.IsShaped, Flow.Flaw, not_or, forall_and, not_memberFlaw_iff, free_list_iff,
    Node.isShaped_iff, Edge.isShaped_iff]

end StrategyDesk
