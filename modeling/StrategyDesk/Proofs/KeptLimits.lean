import StrategyDesk.Proofs.LastSaved
import StrategyDesk.Proofs.Limits
import StrategyDesk.Proofs.Removing

/-!
Limits over runs. The rows of pairs hold exactly the terms that were last saved and not ended since,
so a limit that was taken stays until another one is saved for its pair. In every later session it
is read back as the same count of millionths and the engine is given the same double. To save that
double again changes nothing of this.
-/

set_option autoImplicit false

namespace StrategyDesk
open Engine

variable {σ : Type}

/-! ### Rows and what was last saved -/

theorem AssignRequest.takes_of_terms? {r : AssignRequest} {t : PairTerms}
    (h : r.terms? = some t) : Limit.Takes r.limit t.limit := by
  unfold terms? at h
  split at h
  · rename_i markets limit paper hcheck hlimit hpaper
    cases h
    refine ⟨?_, hlimit⟩
    unfold check at hcheck
    split at hcheck
    · cases hcheck
    · cases hcheck
    · assumption
  · cases h

theorem Operation.request_of_termsSave? {o : Operation} {p : Int × Int} {t : PairTerms}
    (h : o.termsSave? p = some (some t)) :
    ∃ r, o = .assignStrategy p.1 p.2 r ∧ r.terms? = some t := by
  cases o with
  | assignStrategy w s r =>
    simp only [termsSave?] at h
    split at h
    · rename_i hpair
      subst hpair
      exact ⟨r, rfl, Option.some.inj h⟩
    · cases h
  | unassignStrategy | deleteStrategy | deleteWallet =>
    simp only [termsSave?] at h
    split at h <;> cases h
  | _ => cases h

namespace Operation.Done

variable {d : Desk σ} {o : Operation} {r : Result} {s : Store}

theorem row_of_save (h : o.Done d r s) {p : Int × Int} {t : PairTerms}
    (hsave : o.termsSave? p = some (some t)) : ∃ a ∈ s.assignments, a.pair = p := by
  obtain ⟨q, rfl, -⟩ := request_of_termsSave? hsave
  cases h with
  | assignStrategy _ _ hmarkets hrow =>
    obtain ⟨-, hpair, hid⟩ := AssignRequest.terms?_of_row hmarkets hrow
    exact ⟨_, Store.mem_place hid, hpair⟩

theorem row_stays (h : o.Done d r s) (hs : d.store.Linked) {a : Assignment}
    (ha : a ∈ d.store.assignments) (hkept : o.termsSave? a.pair ≠ some none) :
    ∃ b ∈ s.assignments, b.pair = a.pair := by
  cases h with
  | deleteStrategy =>
    have hid : a.strategyId ≠ _ := fun hid => hkept (if_pos hid.symm)
    exact ⟨a, List.mem_filter.2 ⟨ha, bne_iff_ne.2 hid⟩, rfl⟩
  | deleteWallet =>
    have hid : a.walletId ≠ _ := fun hid => hkept (if_pos hid.symm)
    refine ⟨a, ?_, rfl⟩
    rw [Store.withoutWallet, Store.assignments_refreshAll]
    exact List.mem_filter.2 ⟨ha, bne_iff_ne.2 hid⟩
  | unassignStrategy hfind =>
    obtain ⟨hmem, hpair⟩ := Store.mem_of_assignment? (Store.assignment?_of_find hfind)
    refine ⟨a, List.mem_filter.2 ⟨ha, bne_iff_ne.2 fun hid => hkept (if_pos ?_)⟩, rfl⟩
    rw [hs.assignment_eq ha hmem hid, hpair]
  | assignStrategy _ _ _ hrow =>
    obtain ⟨b, hb, -, hpair⟩ := hs.stays_place hrow ha
    exact ⟨b, hb, hpair⟩
  | activate =>
    rw [Store.assignments_start]
    exact ⟨_, List.mem_map_of_mem ha, by split <;> rfl⟩
  | deactivate =>
    rw [Store.assignments_stop]
    exact ⟨_, List.mem_map_of_mem ha, by split <;> rfl⟩
  | addWallet | noWallet | setWalletStatus | getStrategy | createStrategy
  | updateStrategy | haltStrategy | haltWallet | kill | unkill | hasRunning => exact ⟨a, ha, rfl⟩

end Operation.Done

/-- Every pair with terms that were saved and not ended has a row. -/
def HasSavedRows (h : List (Event σ)) (s : Store) : Prop :=
  ∀ p t, lastTerms p h = some t → ∃ a ∈ s.assignments, a.pair = p

theorem HasSavedRows.run (e : Behaviour σ) {h : List (Event σ)} {d : Desk σ} (o : Operation)
    (hh : HasSavedRows h d.store) (hs : d.store.Sound) :
    HasSavedRows (h ++ [⟨d, o, o.run e d⟩]) (o.run e d).desk.store := by
  intro p t hlast
  rw [lastTerms, lastSaved_append, Event.termsSave?] at hlast
  cases o.run_course e d with
  | refused hresult hstore | stopped hresult hstore =>
    rw [hresult] at hlast
    rw [hstore]
    exact hh p t hlast
  | done hresult hdone =>
    simp only [hresult] at hlast
    cases hsave : o.termsSave? p with
    | none =>
      rw [hsave] at hlast
      obtain ⟨a, ha, rfl⟩ := hh p t hlast
      refine hdone.row_stays hs.toLinked ha fun hended => ?_
      rw [hsave] at hended
      cases hended
    | some save =>
      rw [hsave, Option.getD_some] at hlast
      exact hdone.row_of_save (hlast ▸ hsave)

theorem Desk.terms_run (e : Behaviour σ) (engine : σ) (ids : Form.Supply) (room : Room)
    (os : List Operation) (w id : Int) :
    (((Desk.fresh engine ids room).run e os).store.assignment? w id).map Assignment.terms =
      lastTerms (w, id) ((Desk.fresh engine ids room).history e os) := by
  have hsaved := Desk.holdsSaved_run e engine ids room os
  have hlinked := (Desk.sound_run e engine ids room os).toLinked
  have hrows := (Desk.sound_induction (motive := fun h d => HasSavedRows h d.store) e engine ids
    room (fun p t h => nomatch h) (fun h d o hs hh => hh.run e o hs) os).2
  cases hrow : ((Desk.fresh engine ids room).run e os).store.assignment? w id with
  | some a =>
    obtain ⟨ha, hpair⟩ := Store.mem_of_assignment? hrow
    rw [Option.map_some, ← hpair, hsaved.terms a ha]
  | none =>
    cases hlast : lastTerms (w, id) ((Desk.fresh engine ids room).history e os) with
    | none => rfl
    | some t =>
      obtain ⟨a, ha, hpair⟩ := hrows (w, id) t hlast
      exact absurd hpair (Store.pair_ne_of_assignment? hrow ha)

theorem takes_of_lastTerms {p : Int × Int} {h : List (Event σ)} {t : PairTerms}
    (hlast : lastTerms p h = some t) : ∃ j, Limit.Takes j t.limit := by
  have hmem : some t ∈ h.filterMap (Event.termsSave? p) := by
    rw [lastTerms, lastSaved, Option.join_eq_some_iff] at hlast
    exact List.mem_of_getLast? hlast
  obtain ⟨v, -, hsave⟩ := List.mem_filterMap.1 hmem
  unfold Event.termsSave? at hsave
  split at hsave
  · obtain ⟨q, -, hterms⟩ := Operation.request_of_termsSave? hsave
    exact ⟨q.limit, AssignRequest.takes_of_terms? hterms⟩
  · cases hsave

/-! ### Limits of a pair -/

/-- An event leaves the limit of a pair at a count of millionths: it does not end the assignment of
the pair, and saves no limit for it but the double that stands for this count. -/
def Event.Spares (p : Int × Int) (m : ℕ) (v : Event σ) : Prop :=
  ∀ save, v.termsSave? p = some save →
    ∃ t, save = some t ∧ t.limit = Double.ofRatio false m 1000000

/-- In every later session the limit of a pair is read back as a count of millionths, and the engine
is told the double that stands for it. -/
def KeepsLimit (e : Behaviour σ) (d : Desk σ) (w id : Int) (m : ℕ) : Prop :=
  ∀ later, (∀ v ∈ d.history e later, v.Spares (w, id) m) →
    let d' := d.run e later
    (∃ a, d'.store.assignment? w id = some a ∧ Limit.millionths a.limit = m ∧
      Limit.text a.limit = Double.fixedText 6 m) ∧
    ∀ (o : Operation) (x : Exchange) (t : Terms), x ∈ (o.run e d').sent →
      x.call = .activate w id t → t.maxPosition = Double.ofRatio false m 1000000

theorem lastTerms_of_spares {p : Int × Int} {m : ℕ} (hlow : 1000000 ≤ m)
    (hhigh : m ≤ 1000000000000) {h h' : List (Event σ)} {t : PairTerms}
    (hlast : lastTerms p h = some t) (hm : Limit.millionths t.limit = m)
    (hspares : ∀ v ∈ h', v.Spares p m) :
    ∃ t', lastTerms p (h ++ h') = some t' ∧ Limit.millionths t'.limit = m := by
  induction h' using List.reverseRecOn with
  | nil => exact ⟨t, by rwa [List.append_nil], hm⟩
  | append_singleton h' v ih =>
    obtain ⟨t', hlast', hm'⟩ := ih fun v hv => hspares v (List.mem_append_left _ hv)
    rw [← List.append_assoc, lastTerms, lastSaved_append]
    cases hsave : v.termsSave? p with
    | none => exact ⟨t', hlast', hm'⟩
    | some save =>
      have hv := hspares v (List.mem_append_right _ (List.mem_singleton_self v))
      obtain ⟨t'', rfl, hlimit⟩ := hv save hsave
      exact ⟨t'', rfl, by rw [hlimit, Limit.millionths_ofRatio hlow hhigh]⟩

theorem Operation.maxPosition_of_mem_sent {e : Behaviour σ} {d : Desk σ} {o : Operation}
    {x : Exchange} {w id : Int} {t : Terms} (hs : d.store.Linked) {a : Assignment}
    (ha : d.store.assignment? w id = some a) (hx : x ∈ (o.run e d).sent)
    (hcall : x.call = .activate w id t) : t.maxPosition = Limit.sent a.limit := by
  have hmem : Call.activate w id t ∈ o.calls d.store := by
    rcases mem_calls_of_sent hx with hmem | hverb
    · exact hcall ▸ hmem
    · rw [hcall] at hverb
      cases hverb
  obtain ⟨r, b, -, hb, hpair, rfl⟩ := activation_of_mem_calls hmem
  obtain ⟨hamem, hapair⟩ := Store.mem_of_assignment? ha
  obtain rfl := hs.assignment_eq_of_pair hb hamem (hpair.trans hapair.symm)
  simp only [Store.termsOf]

theorem takes_of_assign {d : Desk σ} {w id : Int} {q : AssignRequest} {r : Result} {s : Store}
    (h : (Operation.assignStrategy w id q).Done d r s) :
    ∃ t, q.terms? = some t ∧ Limit.Takes q.limit t.limit := by
  cases h with
  | assignStrategy _ _ hmarkets hrow =>
    obtain ⟨hterms, -, -⟩ := AssignRequest.terms?_of_row hmarkets hrow
    exact ⟨_, hterms, AssignRequest.takes_of_terms? hterms⟩

theorem keepsLimit_of_assign (e : Behaviour σ) (engine : σ) (ids : Form.Supply) (room : Room)
    (os : List Operation) {w id : Int} {q : AssignRequest} {r : Result}
    (h : ((Operation.assignStrategy w id q).run e ((Desk.fresh engine ids room).run e os)).result =
      .ok r) :
    ∃ c, Limit.Takes q.limit c ∧ KeepsLimit e
      ((Operation.assignStrategy w id q).run e ((Desk.fresh engine ids room).run e os)).desk w id
      (Limit.millionths c) := by
  obtain ⟨t, hterms, htakes⟩ := takes_of_assign (Operation.done_of_ok h)
  obtain ⟨hlow, hhigh⟩ := htakes.bounds
  refine ⟨t.limit, htakes, fun later hspares => ?_⟩
  have hlast : lastTerms (w, id)
      ((Desk.fresh engine ids room).history e (os ++ [.assignStrategy w id q])) = some t := by
    rw [Desk.history_append_singleton, lastTerms, lastSaved_append, Event.termsSave?]
    simp only [h, Operation.termsSave?, if_true, Option.getD_some, hterms]
  have hrun : (Desk.fresh engine ids room).run e (os ++ [.assignStrategy w id q]) =
      ((Operation.assignStrategy w id q).run e ((Desk.fresh engine ids room).run e os)).desk := by
    rw [Desk.run_append]
    rfl
  rw [← hrun] at hspares ⊢
  obtain ⟨t', hlast', hm⟩ := lastTerms_of_spares hlow hhigh hlast rfl hspares
  rw [← Desk.history_append, ← Desk.terms_run, Desk.run_append] at hlast'
  obtain ⟨a, ha, rfl⟩ := Option.map_eq_some_iff.1 hlast'
  have hlinked :=
    (Desk.sound_run e engine ids room ((os ++ [.assignStrategy w id q]) ++ later)).toLinked
  rw [Desk.run_append] at hlinked
  refine ⟨⟨a, ha, hm, congrArg (Double.fixedText 6) hm⟩, fun o x t hx hcall => ?_⟩
  rw [Operation.maxPosition_of_mem_sent hlinked ha hx hcall, Limit.sent]
  exact congrArg (Double.ofRatio false · 1000000) hm

/-- A limit that is taken on a reachable desk has a value between the bounds. In every later session
it is read back as the value rounded to millionths, and the engine is given the double for that; to
save this double as the limit again changes nothing of it. The limits that are taken are those with
a value between the bounds, and the number that is kept is the one that is read from their text.
Rounding keeps their order. The double for a count of millionths between the bounds is the number
that is read from the text of the count; it is between the bounds too, and too close to the count to
stand for any other one. So every limit in a reachable table is read back as a value between the
bounds. -/
theorem limits_are_kept (e : Behaviour σ) (engine : σ) (ids : Form.Supply) (room : Room)
    (os : List Operation) :
    let d := (Desk.fresh engine ids room).run e os
    (∀ (w id : Int) (q : AssignRequest) (r : Result),
      ((Operation.assignStrategy w id q).run e d).result = .ok r →
      ∃ (x : ℚ) (m : ℕ), Limit.value? q.limit = some x ∧ 1 ≤ x ∧ x ≤ 1000000 ∧
        Limit.RoundsTo x m ∧ |(m : ℚ) / 1000000 - x| ≤ 1 / 2000000 ∧
        1000000 ≤ m ∧ m ≤ 1000000000000 ∧
        KeepsLimit e ((Operation.assignStrategy w id q).run e d).desk w id m) ∧
    (∀ j, (∃ c, Limit.Takes j c) ↔ ∃ x, Limit.value? j = some x ∧ 1 ≤ x ∧ x ≤ 1000000) ∧
    (∀ j c, Limit.Takes j c → Limit.IsBinary j → Numeral.wideDouble? j.spoken = some c) ∧
    (∀ x y m n, Limit.RoundsTo x m → Limit.RoundsTo y n → x ≤ y → m ≤ n) ∧
    (∀ m : ℕ, 1000000 ≤ m → m ≤ 1000000000000 →
      Limit.IsBinary (.double (.ofRatio false m 1000000)) ∧
      Numeral.wideDouble? (Double.fixedText 6 m) = some (.ofRatio false m 1000000) ∧
      ∃ y, (Double.ofRatio false m 1000000).value? = some y ∧ 1 ≤ y ∧ y ≤ 1000000 ∧
        |y - m / 1000000| ≤ 1 / 2 ^ 34 ∧ Limit.RoundsTo y m) ∧
    ∀ a ∈ d.store.assignments,
      1000000 ≤ Limit.millionths a.limit ∧ Limit.millionths a.limit ≤ 1000000000000 := by
  intro d
  refine ⟨fun w id q r h => ?_, fun j => ⟨fun ⟨c, hc⟩ => ?_, fun ⟨x, hx, hlow, hhigh⟩ => ?_⟩,
    fun j c hc hbinary => hc.wideDouble?_spoken hbinary,
    fun x y m n hm hn hle => hm.mono hn hle, fun m hlow hhigh => ?_, fun a ha => ?_⟩
  · obtain ⟨c, htakes, hkeeps⟩ := keepsLimit_of_assign e engine ids room os h
    obtain ⟨x, hx, hlow, hhigh, hrounds⟩ := htakes.roundsTo
    obtain ⟨hleast, hmost⟩ := htakes.bounds
    exact ⟨x, Limit.millionths c, hx, hlow, hhigh, hrounds, hrounds.near, hleast, hmost, hkeeps⟩
  · obtain ⟨x, hx, hlow, hhigh, -⟩ := hc.roundsTo
    exact ⟨x, hx, hlow, hhigh⟩
  · exact Limit.exists_takes hx hlow hhigh
  · exact ⟨Limit.isBinary_ofRatio false m 1000000, Limit.wideDouble?_fixedText hlow,
      Limit.sent_spec hlow hhigh⟩
  · have hlast := (Desk.holdsSaved_run e engine ids room os).terms a ha
    obtain ⟨j, htakes⟩ := takes_of_lastTerms hlast
    exact htakes.bounds

theorem spares_of_resave (e : Behaviour σ) (d : Desk σ) (w id : Int) {q : AssignRequest} {m : ℕ}
    (hlimit : q.limit = .double (.ofRatio false m 1000000)) :
    Event.Spares (w, id) m
      ⟨d, .assignStrategy w id q, (Operation.assignStrategy w id q).run e d⟩ := by
  intro save hsave
  unfold Event.termsSave? at hsave
  split at hsave
  · rename_i r hok
    obtain ⟨t, hterms, htakes⟩ := takes_of_assign (Operation.done_of_ok (e := e) hok)
    rw [Operation.termsSave?, if_pos rfl, hterms, Option.some.injEq] at hsave
    have hamount := htakes.amount
    rw [hlimit] at hamount
    exact ⟨t, hsave.symm, (Except.ok.inj hamount).symm⟩
  · cases hsave

def unassigned : List Operation :=
  [.addWallet (some Wallet.deployed) none none,
    .createStrategy (some 1) (some "s") none (.obj [("mode", .str "node")])]

/-- A limit in the middle between two counts of millionths goes to the even one, and stays there
when that is saved again. -/
theorem limits_are_kept_of_middle :
    let middle : Double := .ofRatio false 129 128
    let again : Double := .ofRatio false 1007812 1000000
    let d := (Desk.fresh () .counted .direct).run obliging unassigned
    let x := (Operation.assignStrategy 1 1 ⟨.null, .double middle, .null⟩).run obliging d
    let later := [Operation.assignStrategy 1 1 ⟨.null, .double again, .bool false⟩]
    (∃ r, x.result = .ok r) ∧
      Numeral.wideDouble? (Json.double middle).spoken = some middle ∧
      (∃ a, (x.desk.run obliging later).store.assignment? 1 1 = some a ∧
        Limit.text a.limit = "1.007812") ∧
      ∀ c ∈ ((Operation.activate 1).run obliging (x.desk.run obliging later)).sent, ∀ t,
        c.call = .activate 1 1 t → t.maxPosition = again := by
  intro middle again d x later
  have hok : ∃ r, x.result = .ok r := by
    have hdone : x.result.toBool = true := by decide +kernel
    cases hresult : x.result with
    | ok r => exact ⟨r, rfl⟩
    | error f =>
      rw [hresult] at hdone
      cases hdone
  have htakes : Limit.Takes (.double middle) middle :=
    ⟨congrArg Except.ok (show (_ && _) = true by decide +kernel), rfl⟩
  obtain ⟨r, hr⟩ := hok
  obtain ⟨hkept, -, hread, -⟩ := limits_are_kept obliging () .counted .direct unassigned
  obtain ⟨y, m, hexact, -, -, hrounds, -, -, -, hkeeps⟩ := hkept 1 1 _ r hr
  have hm : m = 1007812 := by
    obtain ⟨y', hexact', -, -, hrounds'⟩ := htakes.roundsTo
    cases hexact.symm.trans hexact'
    calc m = Limit.millionths middle := hrounds.unique hrounds'
      _ = 1007812 := by decide +kernel
  subst hm
  have hspares : ∀ v ∈ x.desk.history obliging later, v.Spares (1, 1) 1007812 := by
    intro v hv
    rw [List.mem_singleton.1 hv]
    exact spares_of_resave obliging x.desk 1 1 rfl
  obtain ⟨⟨a, ha, -, htext⟩, hsent⟩ := hkeeps later hspares
  have hdigits : Double.fixedText 6 1007812 = "1.007812" := by decide +kernel
  exact ⟨⟨r, hr⟩, hread _ _ htakes (Limit.isBinary_ofRatio _ _ _), ⟨a, ha, htext.trans hdigits⟩,
    fun c hc t hcall => hsent _ c t hc hcall⟩

end StrategyDesk
