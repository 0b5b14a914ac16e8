import Switchboard.Proofs.Exchange.Lifecycle
import Switchboard.Proofs.Registry.Isolation

/-!
# Domains do not disturb one another

The tasks of an exchange are told apart by the names of attempts, and each session has a name of its
own. So the effects that two domains ask for touch different tasks, and it does not matter which of
two commands about different domains the registry comes to first.

* `foldl_perform` says what effects do to an exchange, field by field.
* `Exchange.told` is the answer to a command, and `serve_serve` says that the registry gives it to
  two commands that stand next to one another in its queue.
* `Exchange.Agrees` relates exchanges that are equal but for the order of what is still to be
  withdrawn and forgotten.
* `Exchange.Isolated` collects what holds of the sessions and effects of different domains in every
  state, and `isolated_of_reaches` says that it does.
-/

namespace Switchboard

namespace Table

variable {κ α : Type} [LT κ] [DecidableEq κ] [DecidableLT κ] [LE κ] [Std.IsLinearOrder κ]
  [Std.LawfulOrderLT κ]

/-- The table with a key given a value, or without it. -/
def write (t : Table κ α) : Option (κ × Option α) → Table κ α
  | none => t
  | some (k, some v) => t.insert k v
  | some (k, none) => t.erase k

/-- What stands at a key after a writing. -/
lemma get?_write (t : Table κ α) (w : Option (κ × Option α)) (x : κ) :
    (t.write w).get? x = match w with
      | none => t.get? x
      | some (k, v) => if x = k then v else t.get? x := by
  match w with
  | none => rfl
  | some (k, some v) => exact get?_insert ..
  | some (k, none) => exact get?_erase ..

/-- Different keys may be written in either order. -/
lemma write_comm (t : Table κ α) {w w' : Option (κ × Option α)}
    (h : ∀ k v k' v', w = some (k, v) → w' = some (k', v') → k ≠ k') :
    (t.write w).write w' = (t.write w').write w := by
  refine ext_get? fun x => ?_
  rw [get?_write, get?_write, get?_write, get?_write]
  match w, w', h with
  | none, _, _ => rfl
  | some _, none, _ => rfl
  | some (k, v), some (k', v'), h =>
    have hne := h k v k' v' rfl rfl
    by_cases hx : x = k
    · have hx' : x ≠ k' := hx ▸ hne
      simp only [if_pos hx, if_neg hx']
    · simp only [if_neg hx]

/-- Writings to different keys may be carried out in either order. -/
lemma foldl_write_comm {l l' : List (Option (κ × Option α))}
    (h : ∀ w ∈ l, ∀ w' ∈ l', ∀ k v k' v', w = some (k, v) → w' = some (k', v') → k ≠ k')
    (t : Table κ α) : (l ++ l').foldl write t = (l' ++ l).foldl write t := by
  -- one writing may be put off until after the others
  have hone : ∀ {w}, w ∈ l → ∀ (m : List (Option (κ × Option α))), m ⊆ l' → ∀ t : Table κ α,
      m.foldl write (t.write w) = (m.foldl write t).write w := fun {w} hw m => by
    induction m with
    | nil => exact fun _ _ => rfl
    | cons w' m ih =>
      intro hm t
      have hw' : w' ∈ l' := hm List.mem_cons_self
      rw [List.foldl_cons, List.foldl_cons, write_comm t (h w hw w' hw')]
      exact ih (fun x hx => hm (List.mem_cons_of_mem _ hx)) _
  rw [List.foldl_append, List.foldl_append]
  induction l generalizing t with
  | nil => rfl
  | cons w l ih =>
    rw [List.foldl_cons, List.foldl_cons, ih (fun x hx => h x (List.mem_cons_of_mem _ hx)),
      hone List.mem_cons_self l' (fun _ hx => hx)]
    exact fun hx => hone (List.mem_cons_of_mem _ hx)

end Table

/-! ## What effects do -/

namespace Effect

/-- Whether the effect is about a session and not about a call or a request. -/
def isSession : Effect → Bool
  | forward .. | refuse .. | report .. => false
  | _ => true

/-- The attempt that the effect begins or breaks off. -/
def dial? : Effect → Option (SessionId × Option Dial)
  | connect domain id address => some (id, some { domain, address })
  | abort id => some (id, none)
  | _ => none

/-- The watch that the effect begins. -/
def watch? : Effect → Option (SessionId × Option LossWatch)
  | watch domain id connection => some (id, some { domain, connection })
  | _ => none

/-- Whether the effect is about the attempt or the watch of a name. -/
def Touches (x : Effect) (id : SessionId) : Prop :=
  (∃ v, x.dial? = some (id, v)) ∨ ∃ v, x.watch? = some (id, v)

/-- The registrations that the effect withdraws. -/
def withdrawn : Effect → List RegistrationId
  | withdraw registration => [registration]
  | _ => []

/-- The domains that the effect has forgotten. -/
def forgotten : Effect → List String
  | forget domain => [domain]
  | _ => []

end Effect

/-- All that a command asks for is about a session. -/
lemma Command.Asks.isSession {c : Command} {session : Option Entry} {fresh : SessionId}
    {domain : String} {x : Effect} (h : c.Asks session fresh domain x) : x.isSession = true := by
  cases h <;> rfl

namespace Exchange

variable {e e' e₀ : Exchange} {l l' : List Effect}

/-- An effect about a session is carried out in one of four places. -/
lemma perform_eq {x : Effect} (hx : x.isSession = true) (e : Exchange) :
    e.perform x =
      { e with
        dials := e.dials.write x.dial?
        watches := e.watches.write x.watch?
        withdrawals := e.withdrawals ++ x.withdrawn
        forgets := e.forgets ++ x.forgotten } := by
  cases x with
  | forward | refuse | report => exact absurd hx (by simp [Effect.isSession])
  | _ =>
    simp [perform, Effect.dial?, Effect.watch?, Effect.withdrawn, Effect.forgotten, Table.write]

/-- What is asked for in one place does not matter in another. -/
theorem foldl_perform (hl : ∀ x ∈ l, x.isSession = true) (e : Exchange) :
    l.foldl perform e =
      { e with
        dials := (l.map Effect.dial?).foldl Table.write e.dials
        watches := (l.map Effect.watch?).foldl Table.write e.watches
        withdrawals := e.withdrawals ++ l.flatMap Effect.withdrawn
        forgets := e.forgets ++ l.flatMap Effect.forgotten } := by
  induction l generalizing e with
  | nil => simp
  | cons x l ih =>
    rw [List.foldl_cons, ih fun y hy => hl y (List.mem_cons_of_mem _ hy),
      perform_eq (hl x List.mem_cons_self)]
    simp

/-- Effects on different tasks may be carried out in either order. -/
lemma foldl_write_comm {α : Type} {f : Effect → Option (SessionId × Option α)}
    (h : ∀ x ∈ l, ∀ y ∈ l', ∀ i v j w, f x = some (i, v) → f y = some (j, w) → i ≠ j)
    (t : Table SessionId α) :
    ((l ++ l').map f).foldl Table.write t = ((l' ++ l).map f).foldl Table.write t := by
  rw [List.map_append, List.map_append]
  refine Table.foldl_write_comm (fun w hw w' hw' i v j v' hi hj => ?_) t
  obtain ⟨x, hx, rfl⟩ := List.mem_map.1 hw
  obtain ⟨y, hy, rfl⟩ := List.mem_map.1 hw'
  exact h x hx y hy i v j v' hi hj

/-! ## Two commands -/

/-- The exchange when the registry has answered a command, with a name for the attempt that the
command may begin, and the effects have been begun. -/
def told (e : Exchange) (fresh : SessionId) (c : Command) : Exchange :=
  (e.registry.react fresh c).2.foldl perform
    { e with registry := (e.registry.react fresh c).1 }

/-- This is what the registry does with its next command. -/
lemma serve_told {c : Command} {rest : List Command} (hr : e.running = true)
    (hq : e.queue = c :: rest) (hc : c ≠ .stop) :
    e.step .serve = some ((e.taken rest).told e.nextSession c) := serve_cons hr hq hc

lemma ne_stop {c : Command} {k : String} (hc : c.domain? = some k) : c ≠ .stop := by
  rintro rfl
  exact absurd hc (by simp [Command.domain?])

/-- All that a command about a domain asks for is about a session. -/
lemma isSession_of_react {c : Command} {k : String} (hc : c.domain? = some k) (e : Exchange)
    (fresh : SessionId) : ∀ x ∈ (e.registry.react fresh c).2, x.isSession = true := fun _ hx =>
  (Registry.asks_of_mem_react hc hx).isSession

/-- It makes no difference to the answer when its command is taken from the queue. -/
lemma told_taken {c : Command} {k : String} (hc : c.domain? = some k) (e : Exchange)
    (rest : List Command) (fresh : SessionId) :
    (e.taken rest).told fresh c = (e.told fresh c).taken rest := by
  have hregistry : (e.taken rest).registry = e.registry := rfl
  have hsession := isSession_of_react hc e fresh
  rw [told, told, hregistry, foldl_perform hsession, foldl_perform hsession]
  rfl

/-- The answer to a command about a domain neither stops the registry nor gives out a name. -/
lemma told_fields {c : Command} {k : String} (hc : c.domain? = some k) (e : Exchange)
    (fresh : SessionId) :
    (e.told fresh c).running = e.running ∧ (e.told fresh c).nextSession = e.nextSession := by
  rw [told, foldl_perform (isSession_of_react hc e fresh)]
  exact ⟨rfl, rfl⟩

/-- Two commands about domains that stand next to one another are answered in their order, with the
next two names. -/
theorem serve_serve {c d : Command} {k l : String} {rest : List Command} (hr : e.running = true)
    (hc : c.domain? = some k) (hd : d.domain? = some l) (hq : e.queue = c :: d :: rest) :
    ∃ e₁, e.step .serve = some e₁ ∧ e₁.step .serve = some
      ((((e.told e.nextSession c).told (e.nextSession + 1) d).taken (d :: rest)).taken rest) := by
  refine ⟨(e.told e.nextSession c).taken (d :: rest), ?_, ?_⟩
  · rw [serve_told hr hq (ne_stop hc), told_taken hc]
  · obtain ⟨hrunning, hnames⟩ := told_fields hc e e.nextSession
    have hr' : ((e.told e.nextSession c).taken (d :: rest)).running = true := hrunning.trans hr
    have hnext : ((e.told e.nextSession c).taken (d :: rest)).nextSession = e.nextSession + 1 :=
      congrArg (· + 1) hnames
    rw [serve_told hr' rfl (ne_stop hd), hnext, told_taken hd, told_taken hd]

/-- Equal, but for the order of what is still to be withdrawn and forgotten. -/
inductive Agrees (e : Exchange) : Exchange → Prop
  | intro {withdrawals : List RegistrationId} {forgets : List String}
      (hw : e.withdrawals.Perm withdrawals) (hf : e.forgets.Perm forgets) :
    Agrees e { e with withdrawals, forgets }

/-- What a command asks for touches the task of its own new name or of the domain's session. -/
lemma task_of_asks {c : Command} {session : Option Entry} {fresh id : SessionId}
    {domain : String} {x : Effect} (h : c.Asks session fresh domain x) (hid : x.Touches id) :
    id = fresh ∨ ∃ entry, session = some entry ∧ entry.id = id := by
  cases h with
  | connect =>
    left
    simpa [Effect.Touches, Effect.dial?, Effect.watch?, eq_comm] using hid
  | abort hs => exact .inr ⟨_, hs, by simpa [Effect.Touches, Effect.dial?, Effect.watch?] using hid⟩
  | watch hs => exact .inr ⟨_, hs, by simpa [Effect.Touches, Effect.dial?, Effect.watch?] using hid⟩
  | withdraw | discard | forget =>
    exact absurd hid (by simp [Effect.Touches, Effect.dial?, Effect.watch?])

section swap

variable {c d : Command} {k l : String} {f g : SessionId} (hc : c.domain? = some k)
  (hd : d.domain? = some l) (hkl : k ≠ l)
include hc hd hkl

/-- What two commands about different domains do, one after the other. -/
lemma told_told (e : Exchange) :
    (e.told f c).told g d =
      ((e.registry.react f c).2 ++ (e.registry.react g d).2).foldl perform
        { e with registry := e.registry.after [(f, c), (g, d)] } := by
  have hf := isSession_of_react hc e f
  have hg := isSession_of_react hd e g
  have hreg : (e.told f c).registry = (e.registry.react f c).1 := by
    rw [told, foldl_perform hf]
  -- what the second command asks for does not depend on the first
  have heffects : ((e.told f c).registry.react g d).2 = (e.registry.react g d).2 := by
    rw [hreg, Registry.effects_react_react hc hd hkl]
  rw [List.foldl_append, told, heffects, hreg, told, foldl_perform hf, foldl_perform hg,
    foldl_perform hf, foldl_perform hg]
  rfl

/-- Two commands about different domains may be handled in either order, if they touch different
tasks. -/
lemma told_comm (e : Exchange)
    (h : ∀ x ∈ (e.registry.react f c).2, ∀ y ∈ (e.registry.react g d).2, ∀ i j,
      x.Touches i → y.Touches j → i ≠ j) :
    ((e.told f c).told g d).Agrees ((e.told g d).told f c) := by
  have hsession : ∀ x ∈ (e.registry.react f c).2 ++ (e.registry.react g d).2,
      x.isSession = true :=
    List.forall_mem_append.2 ⟨isSession_of_react hc e f, isSession_of_react hd e g⟩
  have hdials := foldl_write_comm (f := Effect.dial?) (fun x hx y hy i v j w hi hj =>
    h x hx y hy i j (.inl ⟨v, hi⟩) (.inl ⟨w, hj⟩)) e.dials
  have hwatches := foldl_write_comm (f := Effect.watch?) (fun x hx y hy i v j w hi hj =>
    h x hx y hy i j (.inr ⟨v, hi⟩) (.inr ⟨w, hj⟩)) e.watches
  rw [told_told hc hd hkl, told_told hd hc hkl.symm, (Registry.after_swap hc hd hkl _).1,
    foldl_perform hsession,
    foldl_perform fun x hx => hsession x (List.perm_append_comm.mem_iff.1 hx), hdials, hwatches]
  exact .intro ((List.perm_append_comm.flatMap_right _).append_left _)
    ((List.perm_append_comm.flatMap_right _).append_left _)

end swap

/-! ## Isolation -/

/-- The sessions and the effects of different domains have nothing to do with one another. -/
structure Isolated (e : Exchange) : Prop where
  /-- A command leaves the sessions of all domains as they are but that of the domain that it is
  about, and a call or a request for the sessions leaves them all. -/
  kept : ∀ fresh c k, c.domain? ≠ some k →
    (e.registry.react fresh c).1.table.get? k = e.registry.table.get? k
  /-- A command about a domain asks for nothing but what concerns this domain. -/
  own : ∀ fresh c k, c.domain? = some k → ∀ x ∈ (e.registry.react fresh c).2,
    c.Asks (e.registry.table.get? k) fresh k x
  /-- Two commands about different domains leave the same sessions in either order, and for each
  domain they ask for the same. -/
  swapped : ∀ c d k l, c.domain? = some k → d.domain? = some l → k ≠ l → ∀ f g,
    e.registry.after [(f, c), (g, d)] = e.registry.after [(g, d), (f, c)] ∧
      ∀ m, e.registry.asked m [(f, c), (g, d)] = e.registry.asked m [(g, d), (f, c)]
  /-- With different new names for their attempts, they also leave the same attempts, watches,
  withdrawals and requests to forget, and everything else as well. -/
  performed : e.running = true → ∀ c d k l, c.domain? = some k → d.domain? = some l → k ≠ l →
    ∀ f g, e.nextSession ≤ f → e.nextSession ≤ g → f ≠ g →
      ((e.told f c).told g d).Agrees ((e.told g d).told f c)
  /-- This is what the registry does when the two come one after the other in its queue: it gives
  them the next two names, and takes them from the queue. -/
  served : e.running = true → ∀ c d k l, c.domain? = some k → d.domain? = some l → k ≠ l →
    ∀ rest, e.queue = c :: d :: rest → ∃ e₁, e.step .serve = some e₁ ∧
      e₁.step .serve = some
        ((((e.told e.nextSession c).told (e.nextSession + 1) d).taken (d :: rest)).taken rest)

/-- Sessions have different names, so that the tasks of different domains are different. -/
lemma Tallied.isolated (t : e.running = true → e.Tallied) : e.Isolated where
  kept _ _ _ hk := Registry.get?_react_of_ne hk
  own _ _ _ hk _ hx := Registry.asks_of_mem_react hk hx
  swapped _ _ _ _ hc hd hkl _ _ := Registry.after_swap hc hd hkl _
  performed hr c d k l hc hd hkl f g hf hg hfg := by
    refine told_comm hc hd hkl e fun x hx y hy i j hi hj hij => ?_
    subst hij
    rcases task_of_asks (Registry.asks_of_mem_react hc hx) hi with rfl | ⟨a, ha, rfl⟩ <;>
      rcases task_of_asks (Registry.asks_of_mem_react hd hy) hj with hb | ⟨b, hb, hab⟩
    · exact hfg hb
    · exact Nat.not_lt.2 (hab ▸ hf) ((t hr).id_lt l b hb)
    · exact Nat.not_lt.2 (hb ▸ hg) ((t hr).id_lt k a ha)
    · exact hkl ((t hr).id_inj k l a b ha hb hab.symm)
  served hr _ _ _ _ hc hd _ _ hq := serve_serve hr hc hd hq

/-- From the start on, domains are isolated from one another. -/
theorem isolated_of_reaches {name : String} {permits : Nat} {refusal : Option SessionError}
    (h₀ : start name permits refusal = .ok e₀) (h : e₀.Reaches e) : e.Isolated :=
  Tallied.isolated fun hr => tallied_of_reaches (tallied_of_start h₀) h hr

/-- A second domain is heard while the attempt to reach a first one is still under way. -/
theorem isolated_of_two_attempts :
    let e := alone.run [.discover ⟨"10.0.0.5", 9000, "alpha", "r1"⟩, .serve, .dial 1,
      .connect 1 (some 1), .discover ⟨"10.0.0.6", 9000, "beta", "r2"⟩, .serve]
    start "home" 4 none = .ok alone ∧ alone.Reaches e ∧ e.running = true ∧
      e.registry.listing.map Prod.fst = ["alpha", "beta", "home"] ∧ e.dials.size = 2 ∧
      e.Isolated :=
  ⟨start_alone, reaches_run .., by rfl, by rfl, by rfl,
    isolated_of_reaches start_alone (reaches_run ..)⟩

end Exchange
end Switchboard
