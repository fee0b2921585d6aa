import Templating.Grammar.Reader

/-!
# What readers take

A reader's answer without the trouble it met: what it read, and the tokens it left. A reader is sound
for a relation between tokens and values if all it ever takes from the front of a list is related to
what it answers. In the other direction, related tokens are taken whole if the reader cannot go on
with the token behind them.
-/

namespace Templating

def tokens (ls : List Lexeme) : List Token := ls.map Lexeme.token

@[simp] theorem tokens_cons (l : Lexeme) (ls : List Lexeme) : tokens (l :: ls) = l.token :: tokens ls :=
  rfl

@[simp] theorem tokens_append (ls more : List Lexeme) : tokens (ls ++ more) = tokens ls ++ tokens more :=
  List.map_append

@[simp] theorem length_tokens (ls : List Lexeme) : (tokens ls).length = ls.length := List.length_map _

theorem exists_tokens_eq (ts : List Token) : ∃ ls, tokens ls = ts :=
  ⟨ts.map fun t => ⟨t, ⟨0, 0⟩⟩, (List.map_map ..).trans (List.map_id ts)⟩

theorem tokens_eq_cons {ls : List Lexeme} {t : Token} {us : List Token} (h : tokens ls = t :: us) :
    ∃ l more, ls = l :: more ∧ l.token = t ∧ tokens more = us := by
  obtain ⟨l, more, rfl, ht, hus⟩ := List.map_eq_cons_iff.1 h
  exact ⟨l, more, rfl, ht, hus⟩

theorem tokens_eq_singleton {ls : List Lexeme} {t : Token} (h : tokens ls = [t]) :
    ∃ l, ls = [l] ∧ l.token = t := by
  obtain ⟨l, more, rfl, ht, hmore⟩ := tokens_eq_cons h
  exact ⟨l, congrArg (l :: ·) (List.map_eq_nil_iff.1 hmore), ht⟩

theorem tokens_eq_append {ls : List Lexeme} {us vs : List Token} (h : tokens ls = us ++ vs) :
    ∃ front back, ls = front ++ back ∧ tokens front = us ∧ tokens back = vs := by
  obtain ⟨front, back, rfl, hus, hvs⟩ := List.map_eq_append_iff.1 h
  exact ⟨front, back, rfl, hus, hvs⟩

/-- The next token, if there is one, is as `p` says. -/
def Next (p : Token → Prop) : List Lexeme → Prop
  | [] => True
  | l :: _ => p l.token

theorem Next.mono {p q : Token → Prop} {ts : List Lexeme} (h : Next p ts) (hpq : ∀ t, p t → q t) :
    Next q ts := by
  cases ts with
  | nil => trivial
  | cons l ls => exact hpq _ h

/-- Values spelled one behind the other. -/
inductive Each {α : Type} (R : List Token → α → Prop) : List Token → List α → Prop where
  | nil : Each R [] []
  | cons {ts us : List Token} {a : α} {as : List α} (head : R ts a) (tail : Each R us as) :
    Each R (ts ++ us) (a :: as)

theorem Each.mono {α : Type} {R S : List Token → α → Prop} (h : ∀ ts a, R ts a → S ts a)
    {ts : List Token} {as : List α} (he : Each R ts as) : Each S ts as := by
  induction he with
  | nil => exact .nil
  | cons head _ ih => exact .cons (h _ _ head) ih

theorem Each.snoc {α : Type} {R : List Token → α → Prop} {ts us : List Token} {as : List α} {a : α}
    (h : Each R ts as) (ha : R us a) : Each R (ts ++ us) (as ++ [a]) := by
  induction h with
  | nil => simpa using Each.cons ha .nil
  | cons head _ ih =>
    rw [List.append_assoc]
    exact .cons head ih

theorem Each.notMem {α : Type} {R : List Token → α → Prop} {t : Token} {ts : List Token} {as : List α}
    (h : Each R ts as) (ht : t ∉ ts) : Each (fun us a => t ∉ us ∧ R us a) ts as := by
  induction h with
  | nil => exact .nil
  | cons head _ ih =>
    rw [List.mem_append, not_or] at ht
    exact .cons ⟨ht.1, head⟩ (ih ht.2)

theorem Each.exists_tokens {α : Type} {R : List Token → α → Prop} {ts : List Token} {as : List α} {a : α}
    (h : Each R ts as) (ha : a ∈ as) : ∃ us, R us a ∧ us <:+: ts := by
  induction h with
  | nil => cases ha
  | @cons us vs b as head _ ih =>
    rcases List.mem_cons.1 ha with rfl | ha
    · exact ⟨us, head, (List.prefix_append us vs).isInfix⟩
    · obtain ⟨ws, hws, hin⟩ := ih ha
      exact ⟨ws, hws, hin.trans (List.suffix_append us vs).isInfix⟩

theorem each_eq_iff {α : Type} {f : α → List Token} {ts : List Token} {as : List α} :
    Each (fun us a => us = f a) ts as ↔ ts = as.flatMap f := by
  constructor
  · intro h
    induction h with
    | nil => rfl
    | cons head _ ih => rw [head, ih, List.flatMap_cons]
  · rintro rfl
    induction as with
    | nil => exact .nil
    | cons a as ih => exact .cons rfl ih

theorem intercalate_cons {α : Type} (a : α) (as : List α) (more : List (List α)) :
    [a].intercalate (as :: more) = as ++ more.flatMap (a :: ·) := by
  induction more generalizing as with
  | nil => simp [List.intercalate]
  | cons bs more ih => rw [List.intercalate_cons_cons, ih, List.flatMap_cons]; simp

theorem Each.of_items {α : Type} {R : List Token → α → Prop} (c : Token)
    {items : List (List Token × α)} (h : ∀ item ∈ items, R item.1 item.2) :
    Each (fun us a => ∃ vs, us = c :: vs ∧ R vs a) ((items.map Prod.fst).flatMap (c :: ·))
      (items.map Prod.snd) := by
  induction items with
  | nil => exact .nil
  | cons item items ih =>
    obtain ⟨hitem, hitems⟩ := List.forall_mem_cons.1 h
    exact .cons ⟨item.1, rfl, hitem⟩ (ih hitems)

/-- What is spelled with a token in front of each value. -/
theorem Each.exists_items {α : Type} {R : List Token → α → Prop} {c : Token} {ts : List Token}
    {as : List α} (h : Each (fun us a => ∃ vs, us = c :: vs ∧ R vs a) ts as) :
    ∃ items : List (List Token × α), (∀ item ∈ items, R item.1 item.2) ∧
      ts = (items.map Prod.fst).flatMap (c :: ·) ∧ as = items.map Prod.snd := by
  induction h with
  | nil => exact ⟨[], fun item h => absurd h List.not_mem_nil, rfl, rfl⟩
  | @cons ts us a as head tail ih =>
    obtain ⟨vs, rfl, hR⟩ := head
    obtain ⟨items, hitems, rfl, rfl⟩ := ih
    exact ⟨(vs, a) :: items, List.forall_mem_cons.2 ⟨hR, hitems⟩, rfl, rfl⟩

namespace Reader

variable {α β : Type}

def run (p : Reader α) (ts : List Lexeme) : Option (α × List Lexeme) := (p ts).result

/-! ### What each reader takes -/

theorem run_bind (p : Reader α) (f : α → Reader β) (ts : List Lexeme) :
    run (p >>= f) ts = (run p ts).bind fun read => run (f read.1) read.2 := by
  show (Reader.bind p f ts).result = _
  unfold Reader.bind run
  rcases p ts with ⟨result, trouble⟩
  cases result <;> rfl

theorem run_bind_of_eq {p : Reader α} {ts rest : List Lexeme} {a : α} (h : run p ts = some (a, rest))
    (f : α → Reader β) : run (p >>= f) ts = run (f a) rest := by
  rw [run_bind, h]
  rfl

theorem run_bind_of_none {p : Reader α} {ts : List Lexeme} (h : run p ts = none) (f : α → Reader β) :
    run (p >>= f) ts = none := by
  rw [run_bind, h]
  rfl

theorem exists_of_run_bind {p : Reader α} {f : α → Reader β} {ts rest : List Lexeme} {b : β}
    (h : run (p >>= f) ts = some (b, rest)) :
    ∃ a mid, run p ts = some (a, mid) ∧ run (f a) mid = some (b, rest) := by
  rw [run_bind] at h
  obtain ⟨⟨a, mid⟩, hp, hf⟩ := Option.bind_eq_some_iff.1 h
  exact ⟨a, mid, hp, hf⟩

@[simp] theorem run_select_cons (options : List Expectation) (pick : Token → Option α) (l : Lexeme)
    (ls : List Lexeme) :
    run (select options pick) (l :: ls) = (pick l.token).map fun a => (a, ls) := by
  unfold run select
  dsimp only
  cases pick l.token <;> rfl

theorem run_token_of_eq {t : Token} {l : Lexeme} (h : l.token = t) (ls : List Lexeme) :
    run (token t) (l :: ls) = some ((), ls) := by
  rw [token, run_select_cons, if_pos h]
  rfl

theorem run_token_of_ne {t : Token} {l : Lexeme} (h : l.token ≠ t) (ls : List Lexeme) :
    run (token t) (l :: ls) = none := by
  rw [token, run_select_cons, if_neg h]
  rfl

theorem run_token_of_next {t : Token} {ts : List Lexeme} (h : Next (· ≠ t) ts) :
    run (token t) ts = none := by
  cases ts with
  | nil => rfl
  | cons l ls => exact run_token_of_ne h ls

theorem run_orElse (p q : Reader α) (ts : List Lexeme) :
    run (orElse p q) ts = (run p ts).or (run q ts) := by
  unfold run orElse
  rcases p ts with ⟨result, trouble⟩
  cases result <;> rfl

theorem run_choice_cons (p : Reader α) (ps : List (Reader α)) (ts : List Lexeme) :
    run (choice (p :: ps)) ts = (run p ts).or (run (choice ps) ts) := by
  cases ps with
  | nil => exact (Option.or_none).symm
  | cons q qs => exact run_orElse p (choice (q :: qs)) ts

theorem run_choice_of_some {p : Reader α} {ts rest : List Lexeme} {a : α} (h : run p ts = some (a, rest))
    (ps : List (Reader α)) : run (choice (p :: ps)) ts = some (a, rest) := by
  rw [run_choice_cons, h]
  rfl

theorem run_choice_of_none {p : Reader α} {ts : List Lexeme} (h : run p ts = none)
    (ps : List (Reader α)) : run (choice (p :: ps)) ts = run (choice ps) ts := by
  rw [run_choice_cons, h]
  rfl

theorem run_optional (p : Reader α) (ts : List Lexeme) :
    run (optional p) ts =
      some (((run p ts).map fun read => (some read.1, read.2)).getD (none, ts)) := by
  unfold run optional
  rcases p ts with ⟨result, trouble⟩
  cases result <;> rfl

theorem run_optional_of_some {p : Reader α} {ts rest : List Lexeme} {a : α}
    (h : run p ts = some (a, rest)) : run (optional p) ts = some (some a, rest) := by
  rw [run_optional, h]
  rfl

theorem run_optional_of_none {p : Reader α} {ts : List Lexeme} (h : run p ts = none) :
    run (optional p) ts = some (none, ts) := by
  rw [run_optional, h]
  rfl

theorem run_many_of_none {p : Reader α} {ts : List Lexeme} (h : run p ts = none) (bound : Nat) :
    run (many bound p) ts = some ([], ts) := by
  cases bound with
  | zero => rfl
  | succ bound =>
    unfold run at h ⊢
    rw [many]
    rcases hp : p ts with ⟨result, trouble⟩
    rw [hp] at h
    obtain rfl : result = none := h
    rfl

theorem run_many_of_some {p : Reader α} {ts rest : List Lexeme} {a : α} (h : run p ts = some (a, rest))
    (bound : Nat) :
    run (many (bound + 1) p) ts = (run (many bound p) rest).map fun read => (a :: read.1, read.2) := by
  unfold run at h ⊢
  rw [many]
  rcases hp : p ts with ⟨result, trouble⟩
  rw [hp] at h
  obtain rfl : result = some (a, rest) := h
  rfl

theorem run_checked (p : Reader α) (check : α → Except Refusal β) (ts : List Lexeme) :
    run (checked p check) ts = (run p ts).bind fun read =>
      (check read.1).toOption.map fun b => (b, read.2) := by
  unfold run checked
  rcases p ts with ⟨result, trouble⟩
  cases result with
  | none => rfl
  | some read =>
    obtain ⟨a, rest⟩ := read
    dsimp only [Option.bind_some]
    cases check a <;> rfl

theorem run_checked_of_ok {p : Reader α} {check : α → Except Refusal β} {ts rest : List Lexeme} {a : α}
    {b : β} (h : run p ts = some (a, rest)) (hcheck : check a = .ok b) :
    run (checked p check) ts = some (b, rest) := by
  rw [run_checked, h, Option.bind_some, hcheck]
  rfl

theorem run_checked_of_none {p : Reader α} {check : α → Except Refusal β} {ts : List Lexeme}
    (h : run p ts = none) : run (checked p check) ts = none := by
  rw [run_checked, h]
  rfl

/-! ### Soundness -/

/-- Whatever `p` takes is related to its answer. -/
def Sound (p : Reader α) (R : List Token → α → Prop) : Prop :=
  ∀ ts a rest, run p ts = some (a, rest) → ∃ us, ts = us ++ rest ∧ R (tokens us) a

namespace Sound

variable {p q : Reader α} {R S : List Token → α → Prop}

theorem mono (hp : Sound p R) (h : ∀ ts a, R ts a → S ts a) : Sound p S := by
  intro ts a rest hr
  obtain ⟨us, hus, hR⟩ := hp ts a rest hr
  exact ⟨us, hus, h _ _ hR⟩

protected theorem pure (a : α) : Sound (pure a) fun ts b => ts = [] ∧ b = a := by
  intro ts b rest h
  obtain ⟨rfl, rfl⟩ := Prod.mk.inj (Option.some.inj h)
  exact ⟨[], rfl, rfl, rfl⟩

protected theorem bind {f : α → Reader β} {T : α → List Token → β → Prop} (hp : Sound p R)
    (hf : ∀ a, Sound (f a) (T a)) :
    Sound (p >>= f) fun ts b => ∃ us vs a, ts = us ++ vs ∧ R us a ∧ T a vs b := by
  intro ts b rest h
  obtain ⟨a, mid, ha, hb⟩ := exists_of_run_bind h
  obtain ⟨us, rfl, hR⟩ := hp ts a mid ha
  obtain ⟨vs, rfl, hT⟩ := hf a mid b rest hb
  exact ⟨us ++ vs, (List.append_assoc ..).symm, _, _, a, tokens_append us vs, hR, hT⟩

theorem select (options : List Expectation) (pick : Token → Option α) :
    Sound (select options pick) fun ts a => ∃ t, ts = [t] ∧ pick t = some a := by
  intro ts a rest h
  cases ts with
  | nil => cases h
  | cons l ls =>
    rw [run_select_cons] at h
    obtain ⟨b, hb, he⟩ := Option.map_eq_some_iff.1 h
    obtain ⟨rfl, rfl⟩ := Prod.mk.inj he
    exact ⟨[l], rfl, l.token, rfl, hb⟩

theorem token (t : Token) : Sound (token t) fun ts _ => ts = [t] := by
  refine (select _ _).mono fun ts a h => ?_
  obtain ⟨u, rfl, hu⟩ := h
  split at hu
  · next he => rw [he]
  · cases hu

theorem choice {ps : List (Reader α)} (h : ∀ p ∈ ps, Sound p R) : Sound (choice ps) R := by
  induction ps with
  | nil => intro ts a rest hr; cases hr
  | cons p ps ih =>
    intro ts a rest hr
    rw [run_choice_cons] at hr
    rcases Option.or_eq_some_iff.1 hr with hr | ⟨-, hr⟩
    · exact h p List.mem_cons_self ts a rest hr
    · exact ih (fun q hq => h q (List.mem_cons_of_mem p hq)) ts a rest hr

theorem optional (hp : Sound p R) :
    Sound (optional p) fun ts found => (found = none ∧ ts = []) ∨ ∃ a, found = some a ∧ R ts a := by
  intro ts found rest h
  cases hr : run p ts with
  | none =>
    rw [run_optional_of_none hr] at h
    obtain ⟨rfl, rfl⟩ := Prod.mk.inj (Option.some.inj h)
    exact ⟨[], rfl, .inl ⟨rfl, rfl⟩⟩
  | some read =>
    rw [run_optional_of_some hr] at h
    obtain ⟨rfl, rfl⟩ := Prod.mk.inj (Option.some.inj h)
    obtain ⟨us, hus, hR⟩ := hp ts read.1 read.2 hr
    exact ⟨us, hus, .inr ⟨read.1, rfl, hR⟩⟩

theorem many (hp : Sound p R) (bound : Nat) : Sound (many bound p) (Each R) := by
  induction bound with
  | zero =>
    intro ts as rest h
    obtain ⟨rfl, rfl⟩ := Prod.mk.inj (Option.some.inj h)
    exact ⟨[], rfl, .nil⟩
  | succ bound ih =>
    intro ts as rest h
    cases hr : run p ts with
    | none =>
      rw [run_many_of_none hr] at h
      obtain ⟨rfl, rfl⟩ := Prod.mk.inj (Option.some.inj h)
      exact ⟨[], rfl, .nil⟩
    | some read =>
      rw [run_many_of_some hr] at h
      obtain ⟨⟨more, last⟩, hmore, he⟩ := Option.map_eq_some_iff.1 h
      obtain ⟨rfl, rfl⟩ := Prod.mk.inj he
      obtain ⟨us, rfl, hR⟩ := hp ts read.1 read.2 hr
      obtain ⟨vs, hvs, hmany⟩ := ih read.2 more last hmore
      refine ⟨us ++ vs, ?_, tokens_append us vs ▸ .cons hR hmany⟩
      rw [hvs, List.append_assoc]

theorem checked {check : α → Except Refusal β} (hp : Sound p R) :
    Sound (checked p check) fun ts b => ∃ a, R ts a ∧ check a = .ok b := by
  intro ts b rest h
  rw [run_checked] at h
  obtain ⟨⟨a, mid⟩, ha, hb⟩ := Option.bind_eq_some_iff.1 h
  obtain ⟨us, rfl, hR⟩ := hp ts a mid ha
  obtain ⟨c, hc, he⟩ := Option.map_eq_some_iff.1 hb
  obtain ⟨rfl, rfl⟩ := Prod.mk.inj he
  refine ⟨us, rfl, a, hR, ?_⟩
  cases hcheck : check a with
  | error why => rw [hcheck] at hc; cases hc
  | ok d =>
    rw [hcheck] at hc
    rw [← Option.some.inj hc]

theorem separated {comma : Reader Unit} {c : Token} (hc : Sound comma fun ts _ => ts = [c])
    (hp : Sound p R) (bound : Nat) :
    Sound (separated bound comma p) fun ts as => ∃ items : List (List Token × α),
      (∀ item ∈ items, R item.1 item.2) ∧ ts = [c].intercalate (items.map Prod.fst) ∧
        as = items.map Prod.snd := by
  refine (hp.optional.bind fun found => (?_ : Sound _ fun us as =>
    (found = none → us = [] ∧ as = []) ∧ ∀ a, found = some a → ∃ items : List (List Token × α),
      (∀ item ∈ items, R item.1 item.2) ∧ us = (items.map Prod.fst).flatMap (c :: ·) ∧
        as = a :: items.map Prod.snd)).mono ?_
  · cases found with
    | none =>
      refine (Sound.pure []).mono fun us as h => ⟨fun _ => h, fun a ha => ?_⟩
      cases ha
    | some a =>
      have hitem : Sound (do comma; p) fun ts b => ∃ us, ts = c :: us ∧ R us b := by
        refine (hc.bind fun _ => hp).mono fun ts b h => ?_
        obtain ⟨us, vs, -, rfl, rfl, hR⟩ := h
        exact ⟨vs, rfl, hR⟩
      refine ((hitem.many bound).bind fun as => Sound.pure (a :: as)).mono ?_
      rintro ts bs ⟨us, vs, as, rfl, heach, rfl, rfl⟩
      refine ⟨fun h => (nomatch h), fun b hb => ?_⟩
      obtain rfl := Option.some.inj hb
      obtain ⟨items, hitems, rfl, rfl⟩ := heach.exists_items
      refine ⟨items, hitems, List.append_nil _, rfl⟩
  · rintro ts as ⟨us, vs, found, rfl, hfound, hnone, hsome⟩
    rcases hfound with ⟨rfl, rfl⟩ | ⟨a, rfl, hR⟩
    · obtain ⟨rfl, rfl⟩ := hnone rfl
      exact ⟨[], fun item h => absurd h List.not_mem_nil, rfl, rfl⟩
    · obtain ⟨items, hitems, rfl, rfl⟩ := hsome a rfl
      exact ⟨(us, a) :: items, List.forall_mem_cons.2 ⟨hR, hitems⟩, (intercalate_cons c us _).symm, rfl⟩

end Sound

/-! ### Taking related tokens whole -/

/-- Fewer than `bound` tokens that are related to a value are taken whole, and answered with it, where
the next token is as `next` says. -/
def Complete (p : Reader α) (R : List Token → α → Prop) (bound : Nat) (next : Token → Prop) : Prop :=
  ∀ us a rest, R (tokens us) a → us.length < bound → Next next rest → run p (us ++ rest) = some (a, rest)

theorem Complete.mono {p : Reader α} {R S : List Token → α → Prop} {bound smaller : Nat}
    {next stricter : Token → Prop} (hp : Complete p R bound next) (hR : ∀ ts a, S ts a → R ts a)
    (hbound : smaller ≤ bound) (hnext : ∀ t, stricter t → next t) : Complete p S smaller stricter :=
  fun us a rest h hlength hrest =>
    hp us a rest (hR _ _ h) (Nat.lt_of_lt_of_le hlength hbound) (hrest.mono hnext)

/-- Whatever is related begins with a token of this kind. -/
def Starts (R : List Token → α → Prop) (next : Token → Prop) : Prop :=
  ∀ ts a, R ts a → ∃ t us, ts = t :: us ∧ next t

theorem Starts.next {R : List Token → α → Prop} {next : Token → Prop} (hs : Starts R next)
    {us rest : List Lexeme} {a : α} (h : R (tokens us) a) : Next next (us ++ rest) := by
  obtain ⟨t, ts, ht, hnext⟩ := hs _ _ h
  obtain ⟨l, ls, rfl, rfl, -⟩ := tokens_eq_cons ht
  exact hnext

theorem Sound.eq_none {p : Reader α} {R : List Token → α → Prop} {start : Token → Prop}
    (hp : Sound p R) (hs : Starts R start) {ts : List Lexeme} (h : Next (fun t => ¬ start t) ts) :
    run p ts = none := by
  refine Option.eq_none_iff_forall_ne_some.2 fun read hr => ?_
  obtain ⟨us, rfl, hR⟩ := hp ts read.1 read.2 hr
  obtain ⟨t, vs, ht, hstart⟩ := hs _ _ hR
  obtain ⟨l, ls, rfl, rfl, -⟩ := tokens_eq_cons ht
  exact h hstart

theorem Starts.length_pos {R : List Token → α → Prop} {next : Token → Prop} (hs : Starts R next)
    {ts : List Token} {a : α} (h : R ts a) : 0 < ts.length := by
  obtain ⟨t, us, rfl, -⟩ := hs _ _ h
  exact Nat.succ_pos _

theorem Starts.next_each {R : List Token → α → Prop} {next : Token → Prop} (hs : Starts R next)
    {us rest : List Lexeme} {as : List α} (h : Each R (tokens us) as) (hrest : Next next rest) :
    Next next (us ++ rest) := by
  generalize hts : tokens us = ts at h
  cases h with
  | nil =>
    cases us with
    | nil => exact hrest
    | cons l ls => cases hts
  | cons head tail =>
    obtain ⟨front, back, rfl, rfl, -⟩ := tokens_eq_append hts
    rw [List.append_assoc]
    exact hs.next head

/-- Values spelled one behind the other are all taken, if each of them begins with a token that ends
the one before, and what is behind them begins no other. -/
theorem Complete.many {p : Reader α} {R : List Token → α → Prop} {bound : Nat} {next : Token → Prop}
    (hp : Complete p R bound next) (hs : Starts R next) {us rest : List Lexeme} {as : List α}
    (h : Each R (tokens us) as) (hlength : us.length < bound) (hnext : Next next rest)
    (hrest : run p rest = none) {times : Nat} (htimes : us.length ≤ times) :
    run (many times p) (us ++ rest) = some (as, rest) := by
  generalize hts : tokens us = ts at h
  induction h generalizing us times with
  | nil =>
    cases us with
    | nil => exact run_many_of_none hrest times
    | cons l ls => cases hts
  | cons head tail ih =>
    obtain ⟨front, back, rfl, rfl, rfl⟩ := tokens_eq_append hts
    have hfront := hs.length_pos head
    rw [length_tokens] at hfront
    rw [List.length_append] at hlength htimes
    obtain ⟨times, rfl⟩ : ∃ n, times = n + 1 := ⟨times - 1, by omega⟩
    have htaken := hp front _ (back ++ rest) head (by omega) (hs.next_each tail hnext)
    have hothers := @ih back (by omega) times (by omega) rfl
    rw [List.append_assoc, run_many_of_some htaken, hothers]
    rfl

theorem Complete.separated {p : Reader α} {R : List Token → α → Prop} {bound : Nat}
    {next : Token → Prop} {c : Token} (hp : Complete p R bound next) (hc : next c)
    {items : List (List Token × α)} (hitems : ∀ item ∈ items, R item.1 item.2) {us rest : List Lexeme}
    (hus : tokens us = [c].intercalate (items.map Prod.fst)) (hlength : us.length < bound)
    (hnext : Next (fun t => next t ∧ t ≠ c) rest) (hrest : run p rest = none) {times : Nat}
    (htimes : us.length ≤ times) :
    run (separated times (token c) p) (us ++ rest) = some (items.map Prod.snd, rest) := by
  have hnext' : Next next rest := hnext.mono fun _ h => h.1
  have hcomma : run (token c) rest = none := run_token_of_next (hnext.mono fun _ h => h.2)
  cases items with
  | nil =>
    cases us with
    | nil => exact run_bind_of_eq (run_optional_of_none hrest) _
    | cons l ls => cases hus
  | cons item items =>
    obtain ⟨hitem, hothers⟩ := List.forall_mem_cons.1 hitems
    rw [List.map_cons, intercalate_cons] at hus
    obtain ⟨front, back, rfl, hfront, hback⟩ := tokens_eq_append hus
    rw [List.length_append] at hlength htimes
    have hparted : Complete (do token c; p) (fun us a => ∃ vs, us = c :: vs ∧ R vs a) bound next := by
      rintro us a rest ⟨vs, hvs, hR⟩ hlength hnext
      obtain ⟨l, ls, rfl, hl, rfl⟩ := tokens_eq_cons hvs
      refine (run_bind_of_eq (run_token_of_eq hl (ls ++ rest)) _).trans ?_
      exact hp ls a rest hR (Nat.lt_of_succ_lt hlength) hnext
    have hstarts : Starts (fun us a => ∃ vs, us = c :: vs ∧ R vs a) next :=
      fun _ _ ⟨vs, hvs, _⟩ => ⟨c, vs, hvs, hc⟩
    have heach : Each (fun us a => ∃ vs, us = c :: vs ∧ R vs a) (tokens back) (items.map Prod.snd) :=
      hback ▸ .of_items c hothers
    have hfirst : run p (front ++ (back ++ rest)) = some (item.2, back ++ rest) :=
      hp front item.2 (back ++ rest) (hfront ▸ hitem) (by omega) (hstarts.next_each heach hnext')
    have hmany : run (Reader.many times (do token c; p)) (back ++ rest) = some (items.map Prod.snd, rest) :=
      hparted.many hstarts heach (by omega) hnext' (run_bind_of_none hcomma _) (by omega)
    rw [List.append_assoc]
    refine (run_bind_of_eq (run_optional_of_some hfirst) _).trans ?_
    exact run_bind_of_eq hmany _

end Reader

end Templating
