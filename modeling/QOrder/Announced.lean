import QOrder.AnnouncingHandlers
import QOrder.Confined
import QOrder.RealtimeGateway

/-! In every interleaving, a request that has ended has announced each of its changes once, on
the kitchen's channel and on the session's, before it made the next. -/

namespace QOrder

open KeyedTable Concurrency

variable {n : Nat} {owner : Uuid → Uuid} {req : Fin n → Request} {D : Deployment owner} {p : Clients n}
  {t : Fin n} {l l' : List (Event n)} {e a b c : Event n}

/-- The event opens a session, and changes nothing else. -/
def Event.Opens (e : Event n) : Prop :=
  ∃ s, s.status = .opened ∧ lookup s.id e.before.sessions = none ∧
    e.after = e.before.overlay { sessions := [s] }

/-- The messages `a` to a kitchen and `b` to a session describe what `c` has changed. It changes
rows of that session only, which is one of that restaurant, and they name no others. -/
def Event.Heralded (c a b : Event n) : Prop :=
  ∃ restaurantId sessionId event, a.stmt = .publish (.kitchen restaurantId) event ∧
    b.stmt = .publish (.session restaurantId sessionId) event ∧ event.Describes c.before c.after ∧
    (∃ s, lookup sessionId c.after.sessions = some s ∧ s.restaurantId = restaurantId) ∧
    c.before.Confined sessionId c.after ∧
    ∀ x ∈ event.named, c.after.Belongs (.kitchen restaurantId) x ∧
      c.after.Belongs (.session restaurantId sessionId) x

/-- Each change but the opening of a session is followed by its two messages, and there are no others. -/
inductive Announcing : List (Event n) → Prop
  | nil : Announcing []
  | still {e : Event n} {l : List (Event n)} (he : e.stmt.Still) (hl : Announcing l) : Announcing (e :: l)
  | opening {e : Event n} {l : List (Event n)} (hc : e.isCommit = true) (he : e.Opens) (hl : Announcing l) :
      Announcing (e :: l)
  | change {c a b : Event n} {m l : List (Event n)} (hc : c.isCommit = true) (hm : ∀ x ∈ m, x.stmt.Still)
      (ht : c.Heralded a b) (hl : Announcing l) : Announcing (c :: (m ++ a :: b :: l))

theorem Announcing.append (h : Announcing l) (h' : Announcing l') : Announcing (l ++ l') := by
  induction h with
  | nil => exact h'
  | still he _ ih => exact .still he ih
  | opening hc he _ ih => exact .opening hc he ih
  | change hc hm ht _ ih =>
    rw [List.cons_append, List.append_assoc, List.cons_append, List.cons_append]
    exact .change hc hm ht ih

theorem Announcing.of_still (h : ∀ e ∈ l, e.stmt.Still) : Announcing l := by
  induction l with
  | nil => exact .nil
  | cons e l ih =>
    refine .still (h e List.mem_cons_self) (ih fun x hx => ?_)
    exact h x (List.mem_cons_of_mem _ hx)

section Changes

variable {h : Holding} {hb : List (Event n)} {channel : Channel} {event : RealtimeEvent}

/-- What a request that opens a session commits without touching other rows is the opening. -/
theorem Event.Made.opening (hm : e.Made owner h) {r : Request} (hj : Justified l h r) (hr : r.opens = true)
    (hs : e.SessionsOnly) : ∃ s, h = .opening s := by
  obtain ⟨horders, hitems, hcalls⟩ := hs
  have hafter := hm.after
  have placed {o : Order} {items : List OrderItem} (hp : h.Places o items) : False := by
    have ho := (hm.placed hp).1
    rw [horders, (hp.newOrder hm.valid).orderNew] at ho
    cases ho
  cases h with
  | opening s => exact ⟨s, rfl⟩
  | reopening s => cases r <;> first | exact hj.elim | cases hr
  | leaving s items kind stage => cases r <;> first | exact hj.1.elim | cases hr
  | moved i i' s =>
    obtain ⟨hi, hmv, -⟩ := hm.valid
    have hi' : lookup i'.id e.after.items = some i' := by
      rw [hafter]
      exact lookup_written _ rfl
    rw [hitems, hmv.id_eq, hi] at hi'
    have heq : i = i' := Option.some.inj hi'
    exact absurd (congrArg OrderItem.status heq) hmv.status_ne
  | ordering o items => exact (placed .ordering).elim
  | ordered o items s at_ => exact (placed (.ordered s at_)).elim
  | calling s call =>
    have hcall : lookup call.id e.after.calls = some call := by
      rw [hafter]
      exact lookup_written _ rfl
    rw [hcalls, hm.valid.new] at hcall
    cases hcall
  | acking call call' => cases r <;> first | exact hj.elim | cases hr
  | nothing => exact hm.complete.elim
  | moving i i' => exact hm.complete.elim
  | touching s => exact hm.complete.elim

theorem Event.Made.opens {s : TableSession} (hm : e.Made owner (.opening s)) : e.Opens :=
  ⟨s, hm.valid.opened, hm.valid.new, hm.after⟩

/-- A message about a commit, sent on both channels, announces it. -/
theorem Event.Made.heralded {h' : Holding} {restaurantId sessionId : Uuid} (hm : c.Made owner h)
    (hm' : c.Made owner h') (ht : c.before.Tenanted) (ha : a.stmt = .publish (.kitchen restaurantId) event)
    (hb : b.stmt = .publish (.session restaurantId sessionId) event)
    (hk : h.Announces (.kitchen restaurantId) event)
    (hs : h'.Announces (.session restaurantId sessionId) event) : c.Heralded a b := by
  refine ⟨restaurantId, sessionId, event, ha, hb, hm.describes hk, hm'.of_restaurant ht hs, hm'.confined hs,
    fun x hx => ?_⟩
  exact ⟨hm.belongs ht hk hx, hm'.belongs ht hs hx⟩

end Changes

section Requests

theorem Deployment.Reaches.own_split (hr : D.Reaches req p) (hl : own t p.state.history = l ++ e :: l') :
    ∃ hb ha, p.state.history = hb ++ e :: ha ∧ e.client = t ∧ own t hb = l ∧
      Entry owner req hb e := by
  obtain ⟨hb, ha, hh, hown, -⟩ := filter_split hl
  have hmem : e ∈ own t p.state.history := by
    rw [hl]
    exact List.mem_append_right _ List.mem_cons_self
  exact ⟨hb, ha, hh, of_decide_eq_true (List.mem_filter.mp hmem).2, hown, hr.inv.logged hb e ha hh⟩

/-- What a request has committed unannounced is the opening of a session. -/
theorem Deployment.Reaches.hushed (hr : D.Reaches req p) (hl : own t p.state.history = l ++ l')
    (hh : Hushed (req t).Mutes l) : Announcing l := by
  have hall : ∀ e ∈ l, e.stmt.Still ∨ e.isCommit = true ∧ e.Opens := by
    intro e he
    obtain ⟨l₁, l₂, rfl⟩ := List.append_of_mem he
    obtain ⟨hp, hc⟩ := hh e he
    by_cases hcommit : e.isCommit = true
    · rw [List.append_assoc, List.cons_append] at hl
      obtain ⟨hb, ha, -, rfl, rfl, hen⟩ := hr.own_split hl
      obtain ⟨h, hcm⟩ := hen.committed hcommit
      obtain ⟨hopens, honly⟩ := hc hcommit
      obtain ⟨s, rfl⟩ := hcm.made.opening hcm.justified hopens honly
      exact .inr ⟨hcommit, hcm.made.opens⟩
    · exact .inl ⟨Bool.not_eq_true _ ▸ hcommit, hp⟩
  clear hl hh
  induction l with
  | nil => exact .nil
  | cons e l ih =>
    have hrest := ih fun x hx => hall x (List.mem_cons_of_mem _ hx)
    rcases hall e List.mem_cons_self with he | ⟨hc, he⟩
    · exact .still he hrest
    · exact .opening hc he hrest

/-- The first message after a change is about this change: all that went before is unannounced. -/
theorem Deployment.Reaches.about (hr : D.Reaches req p) {pre m : List (Event n)} {channel : Channel}
    {event : RealtimeEvent} (hl : own t p.state.history = pre ++ c :: m ++ e :: l')
    (hpre : Hushed (req t).Mutes pre) (hm : ∀ x ∈ m, x.isCommit = false)
    (he : e.stmt = .publish channel event) : ∃ h, c.Made owner h ∧ h.Announces channel event := by
  obtain ⟨hb, ha, -, rfl, hown, hen⟩ := hr.own_split hl
  obtain ⟨l₁, x, l₂, h, hsplit, hj, hmade, hann⟩ := hen.told channel event he
  rw [hown] at hsplit
  have hx : x ∈ pre ++ c :: m := by
    rw [hsplit]
    exact List.mem_append_right _ List.mem_cons_self
  rcases List.mem_append.mp hx with hx | hx
  · obtain ⟨hopens, honly⟩ := (hpre x hx).2 hmade.commit
    obtain ⟨s, rfl⟩ := hmade.opening hj hopens honly
    exact hann.elim
  · rcases List.mem_cons.mp hx with rfl | hx
    · exact ⟨h, hmade, hann⟩
    · have hcommit := hmade.commit
      rw [hm x hx] at hcommit
      cases hcommit

theorem Deployment.Reaches.heralds (hr : D.Reaches req p) (h₀ : D.data.Tenanted) {pre m : List (Event n)}
    {restaurantId sessionId : Uuid} {event : RealtimeEvent}
    (hl : own t p.state.history = pre ++ c :: (m ++ [a, b])) (hpre : Hushed (req t).Mutes pre)
    (hm : ∀ x ∈ m, x.stmt.Still) (ha : a.stmt = .publish (.kitchen restaurantId) event)
    (hb : b.stmt = .publish (.session restaurantId sessionId) event) : c.Heralded a b := by
  have hmem : c ∈ p.state.history := by
    refine List.mem_of_mem_filter (p := fun e => e.client = t) ?_
    change c ∈ own t p.state.history
    simp [hl]
  have hcalm : ∀ x ∈ m ++ [a], x.isCommit = false := by
    intro x hx
    rcases List.mem_append.mp hx with hx | hx
    · exact (hm x hx).1
    · rw [List.mem_singleton.mp hx, Event.isCommit, ha]
      rfl
  have hla : own t p.state.history = pre ++ c :: m ++ a :: [b] := by simp [hl]
  have hlb : own t p.state.history = pre ++ c :: (m ++ [a]) ++ b :: [] := by simp [hl]
  obtain ⟨h, hmade, hk⟩ := hr.about hla hpre (fun x hx => (hm x hx).1) ha
  obtain ⟨h', hmade', hs⟩ := hr.about hlb hpre hcalm hb
  exact hmade.heralded hmade' ((hr.tenanted h₀).1 c hmem) ha hb hk hs

theorem Deployment.Reaches.announcing (hr : D.Reaches req p) (h₀ : D.data.Tenanted)
    (hsweep : req t ≠ .runSweep) {res : Except Exn Response} (hres : (p.threads t).answer = some res) :
    Announcing (own t p.state.history) := by
  rcases hr.watched (fun _ _ => trivial) (Watch.Prompt.handler_finishes hsweep) hres with rfl | hl |
    ⟨pre, c, m, a, b, restaurantId, sessionId, event, hl, hpre, hc, hm, ha, hb⟩
  · exact absurd Exn.irregular_noResultFound (hr.not_irregular hres)
  · have hown : own t p.state.history = own t p.state.history ++ [] := (List.append_nil _).symm
    exact hr.hushed hown hl
  · have hbefore : Announcing pre := hr.hushed hl hpre
    have hchange := hr.heralds h₀ hl hpre hm ha hb
    rw [hl]
    exact hbefore.append (.change hc hm hchange .nil)

end Requests

section Sweep

variable {row : StaleSession} {rows : List StaleSession}

/-- The commit of a sweep that abandons the session has taken that session out of use. -/
theorem Event.Abandons.leaving {h : Holding} {hb : List (Event n)} {late : List Uuid} (ha : e.Abandons row.id late)
    (hc : Committed owner req hb e h) (hreq : req e.client = .runSweep) :
    ∃ s items, h = .leaving s items .abandon .dismissed ∧ s.id = row.id := by
  have unmapped {s : TableSession} (hs : s ∈ e.after.sessions) : ∃ s₀ ∈ e.before.sessions,
      s₀.id = s.id ∧ (s₀.id ≠ row.id → s₀ = s) := by
    rw [ha.sessions] at hs
    obtain ⟨s₀, hs₀, rfl⟩ := List.mem_map.mp hs
    refine ⟨s₀, hs₀, ?_, fun hne => ?_⟩
    · split <;> rfl
    · rw [if_neg hne]
  have hj := hc.justified
  rw [hreq] at hj
  cases h with
  | opening s =>
    have hs : lookup s.id e.after.sessions = some s := by
      rw [hc.after]
      exact lookup_written _ rfl
    obtain ⟨s₀, hs₀, hid, -⟩ := unmapped (mem_of_lookup hs)
    have hold := hc.ok.mem_sessions.mp hs₀
    rw [hid, hc.valid.new] at hold
    cases hold
  | leaving s items kind stage =>
    obtain ⟨⟨rfl, -⟩, -⟩ := hj
    obtain ⟨s', hs', hrow⟩ := hc.made.session_left
    have hstage : stage = .dismissed := by
      cases stage <;> first | rfl | exact hc.complete.elim
    subst hstage
    refine ⟨s, items, rfl, ?_⟩
    by_contra hne
    have hid : s'.id = s.id := key_of_lookup hs'
    obtain ⟨s₀, hs₀, hid₀, heq⟩ := unmapped (mem_of_lookup hs')
    have hsame : s₀ = s := by
      have hl := hc.ok.mem_sessions.mp hs₀
      rw [hid₀, hid, hc.valid.1] at hl
      exact (Option.some.inj hl).symm
    subst hsame
    have hkept := heq hne
    have ho : s₀.status = .opened := by
      rcases hc.valid.2.1 with ho | ⟨-, hk⟩
      · exact ho
      · cases hk
    rw [hkept, hrow] at ho
    cases ho
  | _ => exact hj.elim

theorem Attempt.announcing {pre post m : List (Event n)} (hm : Attempt row m) (hr : D.Reaches req p)
    (h₀ : D.data.Tenanted) (hreq : req t = .runSweep) (hl : own t p.state.history = pre ++ (m ++ post))
    (hb : Blank pre) : Announcing m := by
  obtain ⟨e, rest, rfl, hturn⟩ := hm.sweepTurn hr hreq hl hb
  have command {x : Event n} (hx : x.stmt.isCommand = true) : x.stmt.Still := by
    cases hs : x.stmt with
    | command c => exact ⟨rfl, id⟩
    | _ => simp [hs, Stmt.isCommand] at hx
  have hcas : e.stmt.Still := command (by simp [hturn.cas, Stmt.isCommand])
  cases hm with
  | lost hcas' hrows hn => exact .still hcas .nil
  | @raised _ r rest hcas' hlen hq hfail hroll =>
    refine .still hcas (Announcing.of_still fun x hx => ?_)
    rcases List.mem_append.mp hx with hx | hx
    · exact command (hq x hx)
    · rw [List.mem_singleton.mp hx, hroll]
      exact ⟨rfl, id⟩
  | @abandoned _ e₁ e₂ e₃ e₄ e₅ s hcas' hs hid hst hopen hc₁ hs₁ hc₂ hs₂ hok h₃ h₄ h₅ =>
    have hcommit : e₃.isCommit = true := by simp [Event.isCommit, h₃]
    obtain ⟨late, habandons⟩ : ∃ late, e₃.Abandons row.id late := by
      obtain ⟨⟨hb', x, post', late, hx, -, -, ha⟩, -⟩ := hturn.abandoned hok hopen
      have hmem : e₃ ∈ [x] := hx ▸ List.mem_filter.mpr ⟨by simp, hcommit⟩
      rw [List.mem_singleton.mp hmem]
      exact ⟨late, ha⟩
    have hl₃ : own t p.state.history = (pre ++ [e, e₁, e₂]) ++ e₃ :: (e₄ :: e₅ :: post) := by simp [hl]
    obtain ⟨hb₃, ha₃, hh₃, hclient, -, hen⟩ := hr.own_split hl₃
    obtain ⟨h, hc⟩ := hen.committed hcommit
    obtain ⟨s, items, rfl, hrow⟩ := habandons.leaving hc (by rw [hclient, hreq])
    have htenanted : e₃.before.Tenanted := (hr.tenanted h₀).1 e₃ (by rw [hh₃]; simp)
    have hrestaurant : row.restaurantId = s.restaurantId := by
      have hl₄ : own t p.state.history = (pre ++ [e, e₁, e₂, e₃]) ++ e₄ :: (e₅ :: post) := by simp [hl]
      obtain ⟨hb₄, ha₄, hh₄, -, hown, -⟩ := hr.own_split hl₄
      have hbelongs := (hr.published h₀ hh₄ h₄).2 (.session row.id) (by simp [RealtimeEvent.named])
      obtain ⟨s', hs', hof⟩ := hbelongs
      have hmem : e₃ ∈ hb₄ := by
        refine List.mem_of_mem_filter (p := fun e => e.client = t) ?_
        change e₃ ∈ own t hb₄
        simp [hown]
      obtain ⟨b₁, b₂, rfl⟩ := List.append_of_mem hmem
      have hgrows : e₃.after.Grows e₄.before := hr.grows hh₄
      obtain ⟨s₁, hs₁, -, hr₁⟩ := hc.made.grows.session hc.valid.1
      obtain ⟨s₂, hs₂, -, hr₂⟩ := hgrows.session hs₁
      rw [hrow, hs'] at hs₂
      cases hs₂
      rw [← hr₁, ← hr₂]
      exact hof
    have hannounces (channel : Channel) (hof : channel.Of s.restaurantId s.id) :
        (Holding.leaving s items .abandon .dismissed).Announces channel
          (.sessionAbandoned row.id row.restaurantId) := by
      rw [← hrow, hrestaurant]
      exact ⟨hof, rfl⟩
    have hheralded : e₃.Heralded e₄ e₅ := hc.made.heralded hc.made htenanted h₄ h₅
      (hannounces _ hrestaurant) (hannounces _ ⟨hrestaurant, hrow.symm⟩)
    exact .still hcas (.still (command hc₁) (.still (command hc₂) (.change (m := []) hcommit (by simp) hheralded .nil)))

theorem attempts_announcing {turns : List (List (Event n))} (h : List.Forall₂ Attempt rows turns)
    (hr : D.Reaches req p) (h₀ : D.data.Tenanted) (hreq : req t = .runSweep) {pre : List (Event n)}
    (hb : Blank pre) (hl : own t p.state.history = pre ++ turns.flatten) : Announcing turns.flatten := by
  induction h generalizing pre with
  | nil => exact .nil
  | @cons row m rows turns hm _ ih =>
    rw [List.flatten_cons] at hl ⊢
    have hfirst := hm.announcing hr h₀ hreq hl hb
    refine hfirst.append (ih (hm.blank hb) ?_)
    rw [hl, List.append_assoc]

theorem Deployment.Reaches.sweep_announcing (hr : D.Reaches req p) (h₀ : D.data.Tenanted)
    (hreq : req t = .runSweep) {res : Except Exn Response} (hres : (p.threads t).answer = some res) :
    Announcing (own t p.state.history) := by
  have hhandler : (req t).handler = Scheduler.runSweep >>= fun _ => pure .done := by rw [hreq]; rfl
  have hend := hr.wrapped hhandler (fun _ _ => trivial) Watch.Prompt.runSweep hres
  obtain ⟨e, turns, rows, hl, hstill, hrows, hturns⟩ : ∃ e turns rows,
      own t p.state.history = e :: turns.flatten ∧ e.stmt.Still ∧ e.rows = {} ∧
        List.Forall₂ Attempt rows turns := by
    rcases hend with ⟨_, -, h⟩ | ⟨_, -, h⟩ <;> exact h
  have hblank : Blank [e] := Blank.snoc (l := []) rfl hrows
  rw [hl]
  exact .still hstill (attempts_announcing hturns hr h₀ hreq hblank hl)

end Sweep

/-- Whatever the others do, a request that has ended has announced its changes, each on both
channels before it made the next, and has published nothing else. -/
theorem changes_announced (h₀ : D.data.Tenanted) (hr : D.Reaches req p) {res : Except Exn Response}
    (hres : (p.threads t).answer = some res) : Announcing (own t p.state.history) := by
  by_cases hreq : req t = .runSweep
  · exact hr.sweep_announcing h₀ hreq hres
  · exact hr.announcing h₀ hreq hres

def Event.tells (e : Event n) (channel : Channel) : Bool :=
  match e.stmt with
  | .publish channel' _ => decide (channel' = channel)
  | _ => false

/-- A guest connects and orders while another one's page opens the session. -/
theorem changes_announced_cafe : ∃ p, cafe.Reaches cafeVisitors p ∧
    (∃ e ∈ own 1 p.state.history, e.tells (.kitchen 1) = true) ∧
    (∃ e ∈ own 1 p.state.history, e.tells (.session 1 10) = true) ∧
    ∀ t, Announcing (own t p.state.history) := by
  obtain ⟨p, hr, hc⟩ := cafe.reaches_play cafeVisitors
    (fun p => ((own 1 p.state.history).any fun e => e.tells (.kitchen 1)) &&
      ((own 1 p.state.history).any fun e => e.tells (.session 1 10)) &&
      ((p.threads 0).answer.isSome && (p.threads 1).answer.isSome))
    (steps 0 6 ++ steps 1 12) (by decide +kernel)
  simp only [Bool.and_eq_true] at hc
  obtain ⟨⟨hkitchen, hsession⟩, hends⟩ := hc
  refine ⟨p, hr, List.any_eq_true.mp hkitchen, List.any_eq_true.mp hsession, fun t => ?_⟩
  have hend : (p.threads t).answer.isSome = true := by
    revert t
    exact Fin.forall_fin_two.mpr hends
  obtain ⟨res, hres⟩ := Option.isSome_iff_exists.mp hend
  exact changes_announced Data.tenanted_empty hr hres

end QOrder
