import QOrder.Steps

/-! While a client holds a session's row, nobody adds items to the session, save an order
whose clock shows the `last_activity_at` it has loaded: it sends no update of the row, and
so does not wait for the lock. -/

namespace QOrder

open KeyedTable Concurrency

variable {n : Nat} {owner : Uuid → Uuid} {req : Fin n → Request}

/-- The event adds the item to the session. -/
def Event.adds (e : Event n) (sessionId itemId : Uuid) : Prop :=
  lookup itemId e.before.items = none ∧
    ∃ i, lookup itemId e.after.items = some i ∧ e.after.inSession sessionId i = true

def Event.addsItem (e : Event n) (sessionId : Uuid) : Prop := ∃ itemId, e.adds sessionId itemId

section Lock

variable {hb : List (Event n)} {e : Event n} {k : Uuid} {h : Holding}

theorem Committed.order_of_addsItem (hc : Committed owner req hb e h) (ha : e.addsItem k) :
    ∃ o items, h.Places o items ∧ o.tableSessionId = k := by
  obtain ⟨itemId, hn, i, hl, hin⟩ := ha
  obtain rfl : i.id = itemId := key_of_lookup hl
  have hok := h.commit_ok hc.ok hc.valid hc.complete
  rw [hc.after] at hl hin
  obtain ⟨o, items, hp, hm⟩ := Holding.item_new hc.ok hc.valid (mem_of_lookup hl) hn hc.complete
  refine ⟨o, items, hp, ?_⟩
  obtain ⟨o', ho', rfl⟩ := (Data.inSession_iff hok).mp hin
  simp only [(hp.newOrder hc.valid).itemOrder i hm, Data.overlay_orders, hp.writes_orders, lookup_overlay,
    lookup_singleton, key_order, if_true, Option.some_or, Option.some.injEq] at ho'
  rw [← ho']

/-- An order that does not hold the session's row has sent no `UPDATE` of it. -/
theorem Committed.unchanged_of_addsItem (hc : Committed owner req hb e h) (ha : e.addsItem k)
    (hl : lookup k (h.writes e.now e.before).sessions = none) : Unchanged k (own e.client hb) := by
  obtain ⟨o, items, hp, rfl⟩ := hc.order_of_addsItem ha
  cases hp with
  | ordering =>
    have hj := hc.justified
    cases hq : req e.client with
    | createOrder qrToken body =>
      rw [hq] at hj
      exact hj.2
    | _ => simp [hq, Justified] at hj
  | ordered s at_ =>
    rw [hc.valid.2.2] at hl
    simp [Holding.writes, lookup_singleton] at hl

theorem Event.keeps_of_locks (hl : e.locks k = true) : e.keeps = true := by
  obtain ⟨t, q, r, now, clock, appClock, catalog, before, after⟩ := e
  cases q with
  | command c => cases r <;> first | rfl | cases hl
  | _ => cases hl

theorem Entry.commit_of_addsItem (he : Entry owner req hb e) (ha : e.addsItem k) : e.isCommit = true := by
  by_contra hc
  obtain ⟨itemId, hn, i, hl, -⟩ := ha
  rw [he.other (by simpa using hc), hn] at hl
  cases hl

/-- A statement leaves the others' locks alone, and its client's unless it ends the transaction. -/
theorem exec_locks {t : Fin n} {q : Stmt} {σ σ' : Sys n} {r : Except DbError q.Resp}
    (hx : Exec t q σ r σ') (k : Uuid) : ∃ e : Event n, σ'.history = σ.history ++ [e] ∧ e.client = t ∧
      e.stmt = q ∧ (∀ u, u ≠ t → σ'.writes u = σ.writes u) ∧
      (e.keeps = true → e.locks k = true ∨ (lookup k (σ.writes t).sessions).isSome →
        (lookup k (σ'.writes t).sessions).isSome) := by
  cases hx with
  | kill hq =>
    refine ⟨_, rfl, rfl, rfl, fun u hu => by simp [Sys.kill, Sys.record, Sys.abort, hu], fun hk => ?_⟩
    cases q <;> simp_all [Event.keeps, Sys.event, Event.succeeded, Stmt.isCommand]
  | perform hb =>
    refine ⟨_, rfl, rfl, rfl, fun u hu => ?_, fun hk hl => ?_⟩
    · cases q with
      | command c =>
        simp only [Sys.perform, Sys.answer]
        split <;> simp [Sys.record, Sys.abort, Sys.write, Sys.begin_, hu]
      | _ => simp [Sys.perform, Sys.answer, Sys.record, Sys.begin_, Sys.commit, Sys.abort, hu]
    · cases q with
      | command c =>
        simp only [Sys.perform, Sys.answer] at hk hl ⊢
        cases hv : c.violation (σ.ctx t) (σ.view t) with
        | some e =>
          simp only [hv] at hk
          cases hk
        | none =>
          simp only [hv] at hl
          simp only [Sys.record, Sys.write, Function.update_self, Data.overlay_sessions, lookup_overlay,
            Option.isSome_or, Bool.or_eq_true]
          exact hl
      | commit => cases hk
      | rollback => cases hk
      | _ => simpa [Sys.perform, Sys.answer, Sys.record, Sys.begin_, Event.locks, Event.wrote, Sys.event] using hl

theorem Ready.committed {t : Fin n} {σ σ' : Sys n} {d₀ : Data} {r : Except DbError Stmt.commit.Resp}
    (hr : Ready owner req t .commit σ) (hi : Inv owner req d₀ σ) (hx : Exec t .commit σ r σ')
    (he : σ'.history = σ.history ++ [e]) :
    ∃ h, Committed owner req σ.history e h ∧ σ.writes t = h.writes e.now e.before := by
  cases hx with
  | kill hq => cases hq
  | perform hb =>
    obtain rfl : σ.event t .commit (.ok ()) (σ.commit t).data = e :=
      (List.cons.inj (List.append_cancel_left he)).1
    obtain ⟨h, ha, hc, hj⟩ := hr
    refine ⟨h, ⟨rfl, hi.ok, ha.valid, hc, hj, ?_⟩, ha.writes⟩
    simp only [Sys.event, Sys.commit, Sys.view, ha.writes]

/-- While a client holds the session's row, only orders that do not lock it add items. -/
theorem Deployment.Reaches.locked {D : Deployment owner} {p : Clients n} (hr : D.Reaches req p) {f : Event n}
    (hl : f.locks k = true) {post : List (Event n)} (hh : p.state.history = hb ++ f :: post)
    (hkeep : ∀ g ∈ own f.client post, g.keeps = true) :
    (lookup k (p.state.writes f.client).sessions).isSome ∧
      ∀ h₁ g h₂, post = h₁ ++ g :: h₂ → g.addsItem k → Unchanged k (own g.client (hb ++ f :: h₁)) := by
  induction hr generalizing post with
  | refl => simp [Deployment.start, Deployment.initial, Sys.start] at hh
  | tail hp hs ih =>
    have hr : D.Reaches req _ := hp
    have hr' : D.Reaches req _ := hr.tail hs
    cases hs with
    | env he => cases he <;> exact ih hh hkeep
    | @exec t q cont r σ' hq hx =>
      obtain ⟨e, hhist, rfl, hst, hothers, hown⟩ := exec_locks hx k
      rcases List.eq_nil_or_concat post with rfl | ⟨post, x, rfl⟩
      · obtain ⟨-, he⟩ := List.append_inj' (hhist.symm.trans hh) rfl
        obtain rfl := (List.cons.inj he).1
        exact ⟨hown (Event.keeps_of_locks hl) (.inl hl), by simp⟩
      · have hsplit : σ'.history = (hb ++ f :: post) ++ [x] := by simpa using hh
        obtain ⟨hold, he⟩ := List.append_inj' (hhist.symm.trans hsplit) rfl
        obtain rfl := (List.cons.inj he).1
        obtain ⟨hsome, hadds⟩ := ih hold fun g hg => hkeep g (by
          rw [List.concat_eq_append, own_append]
          exact List.mem_append_left _ hg)
        have hkept (hcl : f.client = e.client) : e.keeps = true :=
          hkeep e (List.mem_filter.mpr ⟨by simp, by simp [hcl]⟩)
        have hlast (hg : e.addsItem k) : Unchanged k (own e.client (hb ++ f :: post)) := by
          obtain rfl : q = .commit := by
            have hc := (hr'.inv.logged _ e [] hhist).commit_of_addsItem hg
            rw [Event.isCommit, hst] at hc
            cases q <;> first | rfl | cases hc
          have hne : f.client ≠ e.client := fun hcl => by
            have hk := hkept hcl
            simp [Event.keeps, hst] at hk
          obtain ⟨h, hc, hw⟩ := (hr.kept.ready hq).committed hr.inv hx hhist
          have hdis := (Data.overlaps_eq_false.mp ((hr.inv.separate f.client).disjoint e.client hne.symm)).1
          obtain ⟨v, hv⟩ := Option.isSome_iff_exists.mp hsome
          have hnone := hdis v (mem_of_lookup hv)
          rw [show v.id = k from key_of_lookup hv, hw] at hnone
          exact hold ▸ hc.unchanged_of_addsItem hg hnone
        refine ⟨?_, fun h₁ g h₂ heq hg => ?_⟩
        · by_cases hcl : f.client = e.client
          · rw [hcl]
            exact hown (hkept hcl) (.inr (hcl ▸ hsome))
          · rw [hothers _ hcl]
            exact hsome
        · rcases List.eq_nil_or_concat h₂ with rfl | ⟨h₂, y, rfl⟩
          · obtain ⟨rfl, he⟩ := List.append_inj' ((List.concat_eq_append).symm.trans heq) rfl
            obtain rfl := (List.cons.inj he).1
            exact hlast hg
          · have hpost : post ++ [e] = (h₁ ++ g :: h₂) ++ [y] := by simpa using heq
            exact hadds h₁ g h₂ (List.append_inj' hpost rfl).1 hg

/-- The state in which an event of a run has been executed. -/
theorem Deployment.Reaches.upTo {D : Deployment owner} {p : Clients n} (hr : D.Reaches req p)
    {post : List (Event n)} (hh : p.state.history = hb ++ e :: post) :
    ∃ p₀ : Clients n, D.Reaches req p₀ ∧ p₀.state.history = hb ∧ p₀.state.data = e.before := by
  induction hr generalizing post with
  | refl => simp [Deployment.start, Deployment.initial, Sys.start] at hh
  | @tail p₁ p₂ hp hs ih =>
    rcases step_event hs with ⟨-, hsame⟩ | ⟨x, hlast, hx, -⟩
    · exact ih (hsame ▸ hh)
    · rcases List.eq_nil_or_concat post with rfl | ⟨post, y, rfl⟩
      · obtain ⟨hold, he⟩ := List.append_inj' (hlast.symm.trans hh) rfl
        obtain rfl := (List.cons.inj he).1
        exact ⟨p₁, hp, hold, hx.symm⟩
      · have hpost : p₁.state.history ++ [x] = (hb ++ e :: post) ++ [y] := by
          rw [← hlast, hh]
          simp
        exact ih (List.append_inj' hpost rfl).1

end Lock

/-- Since the client's last statement that satisfies `P`, an order that has sent no update of the
session has added the item to it. -/
def Slipped (t : Fin n) (P : Stmt → Bool) (sessionId itemId : Uuid) (hb : List (Event n)) : Prop :=
  ∃ h₁ g h₂, hb = h₁ ++ g :: h₂ ∧ (∀ f ∈ own t h₂, P f.stmt = false) ∧ g.adds sessionId itemId ∧
    Unchanged sessionId (own g.client h₁)

def SlippedIn (t : Fin n) (P : Stmt → Bool) (sessionId : Uuid) (hb : List (Event n)) : Prop :=
  ∃ itemId, Slipped t P sessionId itemId hb

section Window

variable {D : Deployment owner} {p : Clients n} {hb h₁ h₂ : List (Event n)} {e f g : Event n} {k : Uuid}
  {P : Stmt → Bool} {items late : List OrderItem}

theorem Data.Grows.inSession_back {d d' : Data} (hg : d.Grows d') (hd : d.Ok owner) (hd' : d'.Ok owner)
    {i j : OrderItem} (hj : lookup i.id d.items = some j) (hi : i ∈ d'.items) (hin : d'.inSession k i = true) :
    d.inSession k j = true := by
  obtain ⟨i', hlook, hord⟩ := hg.item hj
  obtain rfl : i = i' := Option.some.inj ((hd'.mem_items.mp hi).symm.trans hlook)
  obtain ⟨s, -, hin₀⟩ := hd.session_of_item (mem_of_lookup hj)
  have hk : s.id = k := by
    refine Data.inSession_unique hd' (hg.inSession hd hd' hin₀) ?_
    rw [← Data.inSession_congr hord]
    exact hin
  exact hk ▸ hin₀

theorem Data.Grows.new_item {d d' : Data} (hg : d.Grows d') (hd : d.Ok owner) (hd' : d'.Ok owner)
    (hs : d'.itemsOf k = d.itemsOf k ++ late) {i : OrderItem} (hi : i ∈ late) : lookup i.id d.items = none := by
  have hids : ((d.itemsOf k).map key ++ late.map key).Nodup := by
    rw [← List.map_append, ← hs]
    exact hd'.itemsOf_ids
  obtain ⟨hi', hin⟩ := Data.mem_itemsOf.mp (hs ▸ List.mem_append_right _ hi)
  cases hl : lookup i.id d.items with
  | none => rfl
  | some j =>
    have hj : j ∈ d.itemsOf k :=
      Data.mem_itemsOf.mpr ⟨mem_of_lookup hl, hg.inSession_back hd hd' hl hi' hin⟩
    have hne := (List.nodup_append.mp hids).2.2 (key j) (List.mem_map_of_mem hj) (key i) (List.mem_map_of_mem hi)
    exact absurd (key_of_lookup hl) hne

theorem Deployment.Reaches.grows_between (hr : D.Reaches req p) (h₁ h₂ h₃ : List (Event n))
    (hh : p.state.history = h₁ ++ f :: (h₂ ++ g :: h₃)) : f.after.Grows g.before := by
  have hsplit : p.state.history = (h₁ ++ f :: h₂) ++ g :: h₃ := by simpa using hh
  obtain ⟨p₀, hr₀, hh₀, hd₀⟩ := hr.upTo hsplit
  exact hd₀ ▸ hr₀.inv.grows (by simp [hh₀])

/-- Somewhere along the events a row that was not there is added. -/
theorem row_added {d d' : Data} (hf : Follows Event.before Event.after d h₁ d') {key : Uuid}
    (h₀ : lookup key d.items = none) (h' : lookup key d'.items ≠ none) :
    ∃ a g b, h₁ = a ++ g :: b ∧ lookup key g.before.items = none ∧ lookup key g.after.items ≠ none := by
  induction h₁ generalizing d with
  | nil => exact absurd (hf ▸ h₀) h'
  | cons g h ih =>
    obtain ⟨rfl, hf⟩ := hf
    by_cases hg : lookup key g.after.items = none
    · obtain ⟨a, x, b, rfl, hx⟩ := ih hf hg
      exact ⟨g :: a, x, b, rfl, hx⟩
    · exact ⟨[], g, h, rfl, h₀, hg⟩

/-- Of two elements of a list, one that does not come after the other comes before it. -/
theorem after_of_ne {α : Type} {x y : α} {l₁ l₂ m₁ m₂ : List α} (h : l₁ ++ x :: l₂ = m₁ ++ y :: m₂)
    (hne : x ≠ y) (hx : x ∉ m₂) : ∃ w, l₂ = w ++ y :: m₂ := by
  rcases List.append_eq_append_iff.mp h with ⟨as, -, hs⟩ | ⟨bs, -, hs⟩
  · cases as with
    | nil => exact absurd (List.cons.inj hs).1 hne
    | cons a as => exact ⟨as, (List.cons.inj hs).2⟩
  · cases bs with
    | nil => exact absurd (List.cons.inj hs).1.symm hne
    | cons b bs => exact absurd (by simp [(List.cons.inj hs).2]) hx

/-- An added item is one of the session from then on. -/
theorem Event.adds.later {itemId : Uuid} (ha : g.adds k itemId) (hg : g.after.Ok owner) (he : e.before.Ok owner)
    (hge : g.after.Grows e.before) : ∃ i ∈ e.before.itemsOf k, i.id = itemId := by
  obtain ⟨-, i, hi, hin⟩ := ha
  obtain ⟨i', hl, hord⟩ := hge.item hi
  refine ⟨i', Data.mem_itemsOf.mpr ⟨mem_of_lookup hl, ?_⟩, key_of_lookup hl⟩
  rw [Data.inSession_congr hord]
  exact hge.inSession hg he hin

/-- Some event has added an item that was not there before. -/
theorem added_between (hr : D.Reaches req p) (h₁ h₂ h₃ : List (Event n)) (hh : p.state.history = h₁ ++ (h₂ ++ e :: h₃))
    {d : Data} (hf : Follows Event.before Event.after d h₂ e.before) {i : OrderItem}
    (hi : i ∈ e.before.itemsOf k) (hn : lookup i.id d.items = none) :
    ∃ a g b, h₂ = a ++ g :: b ∧ g.adds k i.id := by
  have hsplit : p.state.history = (h₁ ++ h₂) ++ e :: h₃ := by simpa using hh
  have hde := (hr.inv.logged (h₁ ++ h₂) e h₃ hsplit).ok
  obtain ⟨hie, hin⟩ := Data.mem_itemsOf.mp hi
  obtain ⟨a, g, b, rfl, hnew, hnow⟩ := row_added hf hn (by simp [hde.mem_items.mp hie])
  obtain ⟨j, hj⟩ := Option.ne_none_iff_exists'.mp hnow
  have hg := hr.inv.logged (h₁ ++ a) g (b ++ e :: h₃) (by simpa using hh)
  have hge : g.after.Grows e.before := hr.grows_between (h₁ ++ a) b h₃ (by simpa using hh)
  exact ⟨a, g, b, rfl, hnew, j, hj, hge.inSession_back hg.after_ok hde hj hie hin⟩

/-- The items added since a client that holds the session's row has met those of the session. -/
theorem slipped_iff (hr : D.Reaches req p) (hh : p.state.history = hb ++ e :: h₂)
    (hm : ItemsMet P k items (own e.client hb)) (hs : e.before.itemsOf k = items ++ late) {itemId : Uuid} :
    Slipped e.client P k itemId hb ↔ ∃ i ∈ late, i.id = itemId := by
  obtain ⟨l₁, f, l₂, hown, ⟨m₁, c, m₂, rfl, hlock, hm₂⟩, hP, hkeeps, rfl, hl₂⟩ := hm
  have hf : f ∈ own e.client hb := hown ▸ List.mem_append_right _ List.mem_cons_self
  have hc : c ∈ own e.client hb := by simp [hown]
  obtain ⟨b₁, b₂, rfl, hb₁, hb₂⟩ := filter_split hown
  obtain ⟨a₁, a₂, rfl, -, ha₂⟩ := filter_split hb₁
  have henf := hr.inv.logged (a₁ ++ c :: a₂) f (b₂ ++ e :: h₂) (by simpa using hh)
  have hde := (hr.inv.logged _ e h₂ hh).ok
  have hsame := henf.other (Event.not_commit_of_keeps hkeeps)
  have hgrows : f.before.Grows e.before := hsame ▸
    hr.grows_between (a₁ ++ c :: a₂) b₂ h₂ (by simpa using hh)
  constructor
  · -- what is added after the client's last such statement was not there at it
    rintro ⟨x₁, g, x₂, heq, hno, hadds, -⟩
    have heng := hr.inv.logged x₁ g (x₂ ++ e :: h₂) (by rw [hh, heq]; simp)
    have hfg : f ≠ g := fun hfg => by
      have hcommit := heng.commit_of_addsItem ⟨itemId, hadds⟩
      rw [← hfg, Event.not_commit_of_keeps hkeeps] at hcommit
      cases hcommit
    have hfx : f ∉ x₂ := fun hfx => by
      have hP' := hno f (List.mem_filter.mpr ⟨hfx, (List.mem_filter.mp hf).2⟩)
      rw [hP] at hP'
      cases hP'
    obtain ⟨w, rfl⟩ : ∃ w, b₂ = w ++ g :: x₂ := after_of_ne heq hfg hfx
    have hgf : f.before.Grows g.before := hsame ▸
      hr.grows_between (a₁ ++ c :: a₂) w (x₂ ++ e :: h₂) (by simpa using hh)
    have hge : g.after.Grows e.before :=
      hr.grows_between (a₁ ++ c :: a₂ ++ f :: w) x₂ h₂ (by simpa using hh)
    obtain ⟨i, hi, hid⟩ := hadds.later heng.after_ok hde hge
    rw [hs] at hi
    refine ⟨i, (List.mem_append.mp hi).resolve_left fun hold => ?_, hid⟩
    obtain ⟨j, hj, -⟩ := hgf.item (henf.ok.mem_items.mp (Data.mem_itemsOf.mp hold).1)
    rw [hid, hadds.1] at hj
    cases hj
  · -- whoever has added it did not wait for the row that the client holds
    rintro ⟨i, hi, rfl⟩
    obtain ⟨p₀, hr₀, hh₀, hd₀⟩ := hr.upTo hh
    have hf₀ := hr₀.inv.follows
    rw [hh₀, hd₀] at hf₀
    obtain ⟨a, g, b, rfl, hadds⟩ := added_between hr (a₁ ++ c :: a₂ ++ [f]) b₂ h₂ (by simpa using hh) hf₀.split.2
      (hs ▸ List.mem_append_right _ hi) (hsame ▸ hgrows.new_item henf.ok hde hs hi)
    have hkept : ∀ x ∈ own c.client (a₂ ++ f :: (a ++ g :: b)), x.keeps = true := by
      intro x hx
      have hcl : c.client = e.client := of_decide_eq_true (List.mem_filter.mp hc).2
      rw [hcl, own_append] at hx
      rcases List.mem_append.mp hx with hx | hx
      · exact hm₂ x (ha₂ ▸ hx)
      · obtain ⟨hx, hxe⟩ := List.mem_filter.mp hx
        rcases List.mem_cons.mp hx with rfl | hx
        · exact hkeeps
        · exact (hl₂ x (hb₂ ▸ List.mem_filter.mpr ⟨hx, hxe⟩)).1
    have hunlocked := (hr₀.locked hlock (by simpa using hh₀) hkept).2 (a₂ ++ f :: a) g b (by simp) ⟨i.id, hadds⟩
    refine ⟨a₁ ++ c :: a₂ ++ f :: a, g, b, by simp, fun x hx => (hl₂ x ?_).2, hadds, by simpa using hunlocked⟩
    rw [← hb₂, List.filter_append]
    exact List.mem_append_right _ (List.mem_filter.mpr ⟨List.mem_cons_of_mem _ (List.mem_of_mem_filter hx),
      (List.mem_filter.mp hx).2⟩)

theorem slippedIn_iff (hr : D.Reaches req p) (hh : p.state.history = hb ++ e :: h₂)
    (hm : ItemsMet P k items (own e.client hb)) (hs : e.before.itemsOf k = items ++ late) :
    SlippedIn e.client P k hb ↔ late ≠ [] := by
  simp only [SlippedIn, slipped_iff hr hh hm hs]
  constructor
  · rintro ⟨itemId, i, hi, -⟩
    exact List.ne_nil_of_mem hi
  · intro hne
    obtain ⟨i, hi⟩ := List.exists_mem_of_ne_nil _ hne
    exact ⟨i.id, i, hi, rfl⟩

end Window

end QOrder
