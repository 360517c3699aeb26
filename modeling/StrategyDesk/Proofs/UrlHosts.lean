import StrategyDesk.Net.Host
import StrategyDesk.Proofs.AddressTexts
import StrategyDesk.Proofs.Trimming

set_option autoImplicit false

namespace StrategyDesk.Net
open Text

/-! ### URLs from their parts -/

/-- An ASCII character that neither ends an authority nor divides it, brackets included. -/
def isPlain (c : Char) : Bool :=
  c.toNat < 0x80 && !(endsAuthority c || c == '@' || c == '[' || c == ']')

theorem isPlain_iff {c : Char} : isPlain c = true ↔
    c.toNat < 0x80 ∧ endsAuthority c = false ∧ c ≠ '@' ∧ c ≠ '[' ∧ c ≠ ']' := by
  simp [isPlain, and_assoc]

/-- Everything that may stand around a host. -/
structure Surroundings where
  user : Option (List Char)
  port : Option (List Char)
  rest : List Char
  user_plain : ∀ cs ∈ user, ∀ c ∈ cs, isPlain c = true
  port_plain : ∀ cs ∈ port, ∀ c ∈ cs, isPlain c = true
  rest_ends : ∀ c ∈ rest.head?, endsAuthority c = true

namespace Surroundings

variable (s : Surroundings)

def before : List Char :=
  match s.user with
  | none => []
  | some user => user ++ ['@']

def after : List Char :=
  match s.port with
  | none => []
  | some port => ':' :: port

def url (host : List Char) : String :=
  "https://" ++ String.ofList (s.before ++ host ++ s.after ++ s.rest)

theorem before_plain : ∀ c ∈ s.before, isPlain c = true ∨ c = '@' := by
  unfold before
  split
  · simp
  · rename_i user huser
    intro c hc
    exact (List.mem_append.1 hc).imp (s.user_plain user huser c) List.mem_singleton.1

theorem after_plain : ∀ c ∈ s.after, isPlain c = true := by
  unfold after
  split
  · simp
  · rename_i port hport
    exact List.forall_mem_cons.2 ⟨by decide, s.port_plain port hport⟩

end Surroundings

/-- What is left of a text in a URL when tabs and line breaks are gone. -/
def shown (cs : List Char) : List Char := cs.filter fun c => !isIgnored c

theorem shown_append (as bs : List Char) : shown (as ++ bs) = shown as ++ shown bs :=
  List.filter_append ..

theorem mem_of_mem_shown {c : Char} {cs : List Char} (h : c ∈ shown cs) : c ∈ cs :=
  (List.mem_filter.1 h).1

theorem ne_of_mem_reverse {c : Char} {cs : List Char} (h : c ∉ cs) :
    ∀ d ∈ cs.reverse, decide (d ≠ c) = true := by
  intro d hd
  rw [decide_eq_true_eq]
  rintro rfl
  exact h (List.mem_reverse.1 hd)

theorem hostPort_of_notMem {cs : List Char} (h : '@' ∉ cs) : hostPort cs = cs := by
  rw [hostPort, List.takeWhile_eq_self_iff.2 (ne_of_mem_reverse h), List.reverse_reverse]

theorem hostPort_append (user : List Char) {cs : List Char} (h : '@' ∉ cs) :
    hostPort (user ++ '@' :: cs) = cs := by
  have hsplit : (user ++ '@' :: cs).reverse = cs.reverse ++ '@' :: user.reverse := by simp
  rw [hostPort, hsplit,
    (startsOutside_cons (by decide) _).takeWhile_append (ne_of_mem_reverse h),
    List.reverse_reverse]

namespace Surroundings

variable (s : Surroundings) {host : List Char}

theorem clean_url : clean (s.url host).toList = ['h', 't', 't', 'p', 's'] ++ ':' :: '/' :: '/' ::
    (shown (s.before ++ host ++ s.after) ++ shown s.rest) := by
  have hfirst : isControlOrSpace 'h' = false := by decide
  rw [url, String.toList_append, String.toList_ofList, clean, ← shown_append]
  simp [hfirst, isIgnored, shown]

theorem mem_authority {c : Char} (h : c ∈ shown (s.before ++ host ++ s.after)) :
    isPlain c = true ∨ c = '@' ∨ c ∈ host := by
  rcases List.mem_append.1 (mem_of_mem_shown h) with h | h
  · rcases List.mem_append.1 h with h | h
    · exact (s.before_plain c h).imp_right Or.inl
    · exact Or.inr (Or.inr h)
  · exact Or.inl (s.after_plain c h)

theorem authority?_url (h : ∀ c ∈ host, endsAuthority c = false) :
    authority? (s.url host).toList = some (shown (s.before ++ host ++ s.after)) := by
  have hscheme : isScheme ['h', 't', 't', 'p', 's'] = true := by decide
  have hrest : StartsOutside (fun c => !endsAuthority c) (shown s.rest) := by
    cases hs : s.rest with
    | nil => exact fun c hc => by cases hc
    | cons c cs =>
      have hc : endsAuthority c = true := s.rest_ends c (by rw [hs]; rfl)
      have hvisible : isIgnored c = false := by
        simp only [endsAuthority, Bool.or_eq_true, beq_iff_eq] at hc
        rcases hc with (rfl | rfl) | rfl <;> decide
      rw [shown, List.filter_cons_of_pos (by simp [hvisible])]
      exact startsOutside_cons (by simp [hc]) _
  have hinside : ∀ c ∈ shown (s.before ++ host ++ s.after), (!endsAuthority c) = true := by
    intro c hc
    rw [Bool.not_eq_true']
    rcases s.mem_authority hc with hc | rfl | hc
    · exact (isPlain_iff.1 hc).2.1
    · decide
    · exact h c hc
  have hafter : afterScheme (clean (s.url host).toList) =
      '/' :: '/' :: (shown (s.before ++ host ++ s.after) ++ shown s.rest) := by
    rw [clean_url, afterScheme, cut_append (by decide)]
    simp [hscheme]
  simp only [authority?, hafter, hrest.takeWhile_append hinside]

theorem hostPort_shown (h : '@' ∉ host) :
    hostPort (shown (s.before ++ host ++ s.after)) = shown (host ++ s.after) := by
  have hafter : '@' ∉ shown (host ++ s.after) := by
    intro hmem
    rcases List.mem_append.1 (mem_of_mem_shown hmem) with hmem | hmem
    · exact h hmem
    · exact absurd rfl (isPlain_iff.1 (s.after_plain _ hmem)).2.2.1
  rw [List.append_assoc, shown_append]
  unfold before
  split
  · exact hostPort_of_notMem hafter
  · rw [shown_append, List.append_assoc]
    exact hostPort_append _ hafter

theorem not_disguised (h : ∀ c ∈ host, c.toNat < 0x80) :
    (shown (s.before ++ host ++ s.after)).any isDisguised = false := by
  have hall : ∀ c, c.toNat < 0x80 → isDisguised c = false := by
    intro c hc
    simp only [isDisguised, disguisedMarks, List.contains_iff_mem, List.mem_cons, List.not_mem_nil,
      or_false, ← Bool.not_eq_true]
    omega
  rw [List.any_eq_false]
  intro c hc
  rw [Bool.not_eq_true]
  refine hall c ?_
  rcases s.mem_authority hc with hc | rfl | hc
  · exact (isPlain_iff.1 hc).1
  · decide
  · exact h c hc

end Surroundings

/-! ### Letter case -/

theorem ascii_forall {P : Char → Prop} (h : ∀ n < 0x80, P (Char.ofNat n)) {c : Char}
    (hc : c.toNat < 0x80) : P c := by
  have hc := h c.toNat hc
  rwa [Char.ofNat_toNat] at hc

theorem toLower_ascii {c : Char} (h : c.toNat < 0x80) : c.toLower.toNat < 0x80 :=
  ascii_forall (P := fun c => c.toLower.toNat < 0x80) (by decide +kernel) h

theorem lowerHost_of_ascii {cs : List Char} (h : ∀ c ∈ cs, c.toNat < 0x80) :
    ∃ as bs, cs = as ++ bs ∧ lowerHost cs = as.map Char.toLower ++ bs := by
  by_cases hmem : '%' ∈ cs
  · obtain ⟨name, scope, rfl, hname⟩ := List.eq_append_cons_of_mem hmem
    refine ⟨name, '%' :: scope, rfl, ?_⟩
    simp only [lowerHost, cut_append hname,
      lowerChars_of_ascii fun c hc => h c (List.mem_append_left _ hc)]
  · refine ⟨cs, [], (List.append_nil cs).symm, ?_⟩
    simp only [lowerHost, cut_of_notMem hmem, lowerChars_of_ascii h, List.append_nil]

theorem lowerHost_ne_nil {cs : List Char} (h : ∀ c ∈ cs, c.toNat < 0x80) (hne : cs ≠ []) :
    lowerHost cs ≠ [] := by
  obtain ⟨as, bs, rfl, hlower⟩ := lowerHost_of_ascii h
  rw [hlower]
  simpa using hne

theorem judged_lowerHost {cs : List Char} (h : ∀ c ∈ cs, c.toNat < 0x80) :
    judged (lowerHost cs) = trimEnd (· == '.') (cs.map Char.toLower) := by
  obtain ⟨as, bs, rfl, hlower⟩ := lowerHost_of_ascii h
  have hascii : ∀ c ∈ as.map Char.toLower ++ bs, c.toNat < 0x80 := by
    intro c hc
    rcases List.mem_append.1 hc with hc | hc
    · obtain ⟨d, hd, rfl⟩ := List.mem_map.1 hc
      exact toLower_ascii (h d (List.mem_append_left _ hd))
    · exact h c (List.mem_append_right _ hc)
  have htwice : ∀ c ∈ as, (Char.toLower ∘ Char.toLower) c = c.toLower := fun c hc =>
    ascii_forall (P := fun c => c.toLower.toLower = c.toLower) (by decide +kernel)
      (h c (List.mem_append_left _ hc))
  rw [judged, hlower, lowerChars_of_ascii hascii, List.map_append, List.map_append, List.map_map,
    List.map_congr_left htwice]

/-! ### Verdicts -/

theorem isPrivateUrl_of_authority {url : String} {authority host : List Char}
    (hauthority : authority? url.toList = some authority) (hfit : bracketsFit authority = true)
    (hopen : authority.any isDisguised = false) (hhost : hostOf authority = host)
    (hascii : ∀ c ∈ host, c.toNat < 0x80) (hne : host ≠ []) :
    isPrivateUrl url = isPrivateHost (trimEnd (· == '.') (host.map Char.toLower)) := by
  have hread : host? url.toList = some (lowerHost host) := by
    simp only [host?, hauthority, hfit, hopen, hhost, Bool.not_false, Bool.and_self, if_true]
    split
    · rename_i hnil
      exact absurd hnil (lowerHost_ne_nil hascii hne)
    · rfl
  simp only [isPrivateUrl, isPrivate, hread, judged_lowerHost hascii]

theorem Surroundings.shown_after (s : Surroundings) :
    shown s.after = [] ∨ ∃ port, shown s.after = ':' :: port := by
  unfold Surroundings.after
  split
  · exact Or.inl rfl
  · exact Or.inr ⟨_, List.filter_cons_of_pos (by decide)⟩

theorem cut_port (s : Surroundings) {host : List Char} (h : ':' ∉ host) :
    (cut ':' (host ++ shown s.after)).1 = host := by
  rcases s.shown_after with hafter | ⟨port, hafter⟩
  · rw [hafter, List.append_nil, cut_of_notMem h]
  · rw [hafter, cut_append h]

/-! Names -/

/-- A host without brackets and colons that does not only consist of tabs and line breaks. -/
structure IsName (host : List Char) : Prop where
  plain : ∀ c ∈ host, isPlain c = true ∧ c ≠ ':'
  visible : shown host ≠ []

theorem isName_iff {host : List Char} :
    IsName host ↔ (host.all fun c => isPlain c && c != ':') = true ∧ shown host ≠ [] := by
  rw [List.all_eq_true]
  constructor
  · exact fun h => ⟨fun c hc => by simpa using h.plain c hc, h.visible⟩
  · exact fun h => ⟨fun c hc => by simpa using h.1 c hc, h.2⟩

theorem IsName.ascii {host : List Char} (h : IsName host) : ∀ c ∈ host, c.toNat < 0x80 :=
  fun c hc => (isPlain_iff.1 (h.plain c hc).1).1

theorem bracketsFit_of_notMem {authority : List Char} (hopen : '[' ∉ authority)
    (hclose : ']' ∉ authority) : bracketsFit authority = true := by
  simp [bracketsFit, hopen, hclose]

theorem IsName.notMem_authority {host : List Char} (h : IsName host) (s : Surroundings) {c : Char}
    (hc : isPlain c = false) (hat : c ≠ '@') : c ∉ shown (s.before ++ host ++ s.after) := by
  intro hmem
  rcases s.mem_authority hmem with hplain | rfl | hmem
  · rw [hc] at hplain
    cases hplain
  · exact hat rfl
  · exact absurd (h.plain c hmem).1 (by rw [hc]; decide)

theorem isPrivateUrl_name (s : Surroundings) {host : List Char} (h : IsName host) :
    isPrivateUrl (s.url host) =
      isPrivateHost (trimEnd (· == '.') ((shown host).map Char.toLower)) := by
  have hport : hostPort (shown (s.before ++ host ++ s.after)) = shown host ++ shown s.after := by
    rw [s.hostPort_shown fun hc => absurd (h.plain _ hc).1 (by decide), shown_append]
  have hbracket : '[' ∉ shown host ++ shown s.after := by
    intro hc
    rcases List.mem_append.1 hc with hc | hc
    · exact absurd (h.plain _ (mem_of_mem_shown hc)).1 (by decide)
    · exact absurd (s.after_plain _ (mem_of_mem_shown hc)) (by decide)
  have hfit : bracketsFit (shown (s.before ++ host ++ s.after)) = true :=
    bracketsFit_of_notMem (h.notMem_authority s (by decide) (by decide))
      (h.notMem_authority s (by decide) (by decide))
  have hhost : hostOf (shown (s.before ++ host ++ s.after)) = shown host := by
    rw [hostOf, hport, cut_of_notMem hbracket]
    exact cut_port s fun hc => (h.plain _ (mem_of_mem_shown hc)).2 rfl
  exact isPrivateUrl_of_authority
    (s.authority?_url fun c hc => (isPlain_iff.1 (h.plain c hc).1).2.1) hfit
    (s.not_disguised h.ascii) hhost (fun c hc => h.ascii c (mem_of_mem_shown hc)) h.visible

/-! Addresses in brackets -/

def bracketed (cs : List Char) : List Char := '[' :: (cs ++ [']'])

section Bracketed

variable {inner : List Char} {n : Nat}

theorem IsV6.char (h : IsV6 inner n) {c : Char} (hc : c ∈ inner) :
    isPlain c = true ∧ isIgnored c = false := by
  have hkind : (hexDigit? c).isSome = true ∨ c = ':' ∨ c = '.' := by
    by_contra hnone
    simp only [not_or, Option.isSome_iff_ne_none, ne_eq, not_not] at hnone
    exact h.notMem hnone.1 hnone.2.1 hnone.2.2 hc
  rcases hkind with hdigit | rfl | rfl
  · obtain ⟨d, hd⟩ := Option.isSome_iff_exists.1 hdigit
    exact ascii_forall
      (P := fun c => (hexDigit? c).isSome = true → isPlain c = true ∧ isIgnored c = false)
      (by decide +kernel) (hexDigit?_ascii hd) hdigit
  · decide
  · decide

theorem IsV6.bracketed_char (h : IsV6 inner n) {c : Char} (hc : c ∈ bracketed inner) :
    (c.toNat < 0x80 ∧ endsAuthority c = false ∧ c ≠ '@') ∧ isIgnored c = false := by
  simp only [bracketed, List.mem_cons, List.mem_append, List.not_mem_nil, or_false] at hc
  rcases hc with rfl | hc | rfl
  · decide
  · obtain ⟨hascii, hends, hat, -⟩ := isPlain_iff.1 (h.char hc).1
    exact ⟨⟨hascii, hends, hat⟩, (h.char hc).2⟩
  · decide

theorem IsV6.shown_bracketed (h : IsV6 inner n) : shown (bracketed inner) = bracketed inner :=
  List.filter_eq_self.2 fun c hc => by simp [(h.bracketed_char hc).2]

theorem isBracketable_of_isV6 (h : IsV6 inner n) : isBracketable inner = true := by
  unfold isBracketable
  split
  · exact absurd List.mem_cons_self (h.notMem (by decide) (by decide) (by decide))
  · simp [dotted?_eq_none h.colon_mem, scoped?_eq_some_iff.2 (Or.inl h)]

theorem cut_bracketed (h : IsV6 inner n) (s : Surroundings) :
    cut '[' (hostPort (shown (s.before ++ bracketed inner ++ s.after))) =
        ([], some (inner ++ ']' :: shown s.after)) ∧
      cut ']' (inner ++ ']' :: shown s.after) = (inner, some (shown s.after)) := by
  constructor
  · rw [s.hostPort_shown fun hc => (h.bracketed_char hc).1.2.2 rfl, shown_append,
      h.shown_bracketed, bracketed]
    simp [cut]
  · exact cut_append (h.notMem (by decide) (by decide) (by decide)) _

theorem bracketsFit_bracketed (h : IsV6 inner n) (s : Surroundings) :
    bracketsFit (shown (s.before ++ bracketed inner ++ s.after)) = true := by
  obtain ⟨hopen, hclose⟩ := cut_bracketed h s
  have hafter : ((shown s.after).isEmpty || (shown s.after).head? == some ':') = true := by
    rcases s.shown_after with hafter | ⟨port, hafter⟩ <;> simp [hafter]
  have hboth : ∀ c ∈ bracketed inner,
      (shown (s.before ++ bracketed inner ++ s.after)).contains c = true := by
    intro c hc
    rw [List.contains_iff_mem, List.append_assoc, shown_append, shown_append, h.shown_bracketed]
    exact List.mem_append_right _ (List.mem_append_left _ hc)
  simp only [bracketsFit, hboth '[' (by simp [bracketed]), hboth ']' (by simp [bracketed]), hopen,
    hclose, hafter, isBracketable_of_isV6 h]
  rfl

theorem isPrivateUrl_bracketed (s : Surroundings) (h : IsV6 inner n) :
    isPrivateUrl (s.url (bracketed inner)) =
      isPrivateHost (trimEnd (· == '.') (inner.map Char.toLower)) := by
  obtain ⟨hopen, hclose⟩ := cut_bracketed h s
  refine isPrivateUrl_of_authority (s.authority?_url fun c hc => (h.bracketed_char hc).1.2.1)
    (bracketsFit_bracketed h s) (s.not_disguised fun c hc => (h.bracketed_char hc).1.1) ?_
    (fun c hc => (isPlain_iff.1 (h.char hc).1).1) (List.ne_nil_of_mem h.colon_mem)
  simp only [hostOf, hopen, hclose]

end Bracketed

end StrategyDesk.Net
