import Mathlib.Tactic.Lemma
import Switchboard.Registry.Command

/-!
# Each domain on its own

A command is about one domain at most. What it does to the session of that domain, and what it asks
for, follows from the session alone, and no other session takes part in it or is changed by it.

* `Command.domain?` is the domain that a command is about, `Command.answer` its answer as a function
  of the session of that domain. `get?_react` and `effects_react` say that the registry gives it.
* `Command.Asks` lists what may be asked for.
* `after_congr` is about a whole run: what becomes of a domain, and what is asked for it, follow
  from the commands about it. Two runs that differ in how the commands of different domains are
  interleaved end with the same sessions, `after_eq_of_about_eq`.
-/

namespace Switchboard

/-! ## One command -/

namespace Command

/-- The domain that a command is about. -/
def domain? : Command → Option String
  | discovered info => some info.key
  | attempted domain _ _ | lost domain _ => some domain
  | route .. | list _ | stop => none

/-- What a command makes of the session of its domain, and what it asks for. -/
def answer (fresh : SessionId) (session : Option Entry) : Command → Option Entry × List Effect
  | discovered info =>
    match session, info.endpoint? with
    | some entry, _ => (some entry, [])
    | none, none => (none, [.forget info.key])
    | none, some address => (some (.connecting fresh address), [.connect info.key fresh address])
  | attempted domain id outcome =>
    match session, outcome with
    | some (.connecting current address), outcome =>
      if current ≠ id then (session, Registry.discard outcome)
      else
        match outcome with
        | none => (none, [.abort current, .forget domain])
        | some link => (some (.connected id address link), [.watch domain id link.connection])
    | session, outcome => (session, Registry.discard outcome)
  | lost domain id =>
    match session with
    | none => (none, [])
    | some entry =>
      if entry.id = id then (none, entry.release ++ [.forget domain]) else (session, [])
  | route .. | list _ | stop => (session, [])

/-- What a command may ask for its domain, with the session that the domain has. -/
inductive Asks (c : Command) (session : Option Entry) (fresh : SessionId) (domain : String) :
    Effect → Prop
  /-- Only a domain without a session is connected to. -/
  | connect {address : Endpoint} (h : session = none) :
    Asks c session fresh domain (.connect domain fresh address)
  | abort {entry : Entry} (h : session = some entry) : Asks c session fresh domain (.abort entry.id)
  | watch {entry : Entry} {connection : ConnectionId} (h : session = some entry) :
    Asks c session fresh domain (.watch domain entry.id connection)
  /-- The pattern of the session is withdrawn. -/
  | withdraw {entry : Entry} {link : Link} (h : session = some entry)
      (hl : entry.link? = some link) : Asks c session fresh domain (.withdraw link.registration)
  /-- The pattern that the command itself brings is withdrawn. -/
  | discard {id : SessionId} {link : Link} (h : c = .attempted domain id (some link)) :
    Asks c session fresh domain (.withdraw link.registration)
  | forget : Asks c session fresh domain (.forget domain)

end Command

namespace Registry

variable {r r' : Registry} {fresh : SessionId} {c : Command} {k : String} {x : Effect}

/-- Ending a session concerns its own domain only. -/
lemma get?_remove (r : Registry) (domain k : String) :
    (r.remove domain).1.table.get? k = if k = domain then none else r.table.get? k := by
  unfold remove
  split
  · next hnone =>
    by_cases hk : k = domain
    · rw [if_pos hk, hk, hnone]
    · rw [if_neg hk]
  · exact Table.get?_erase ..

/-- A command leaves the sessions of all other domains as they are. -/
theorem get?_react_of_ne (hk : c.domain? ≠ some k) :
    (r.react fresh c).1.table.get? k = r.table.get? k := by
  cases c with
  | discovered info =>
    have hne : k ≠ info.key := fun he => hk (congrArg some he.symm)
    simp only [react, discover]
    split
    · rfl
    · split
      · rfl
      · exact (Table.get?_insert ..).trans (if_neg hne)
  | attempted domain id outcome =>
    have hne : k ≠ domain := fun he => hk (congrArg some he.symm)
    simp only [react, conclude]
    split
    · split
      · rfl
      · split
        · exact (get?_remove ..).trans (if_neg hne)
        · exact (Table.get?_insert ..).trans (if_neg hne)
    · rfl
  | lost domain id =>
    have hne : k ≠ domain := fun he => hk (congrArg some he.symm)
    simp only [react, lose]
    split
    · rfl
    · split
      · exact (get?_remove ..).trans (if_neg hne)
      · rfl
  | route call i =>
    simp only [react, route]
    split
    · rfl
    · split
      · rfl
      · split <;> rfl
  | list query => rfl
  | stop => rfl

/-- The answer to a command about a domain is that of the domain's own session. -/
lemma react_of_domain (hk : c.domain? = some k) :
    ((r.react fresh c).1.table.get? k, (r.react fresh c).2)
      = c.answer fresh (r.table.get? k) := by
  cases c with
  | discovered info =>
    obtain rfl := Option.some.inj hk
    simp only [react, discover, Command.answer, Table.contains]
    obtain hget | ⟨entry, hget⟩ := (r.table.get? info.key).eq_none_or_eq_some
    · cases info.endpoint? <;> simp [hget]
    · simp [hget]
  | attempted domain id outcome =>
    obtain rfl := Option.some.inj hk
    simp only [react, conclude, Command.answer]
    cases hget : r.table.get? domain with
    | none => simp [hget]
    | some entry =>
      cases entry with
      | connecting current address =>
        by_cases hid : current = id
        · cases outcome <;> simp [hid, remove, hget, Entry.release]
        · simp [hid, hget]
      | home => simp [hget]
      | connected => simp [hget]
  | lost domain id =>
    obtain rfl := Option.some.inj hk
    simp only [react, lose, Command.answer]
    cases hget : r.table.get? domain with
    | none => simp [hget]
    | some entry => by_cases hid : entry.id = id <;> simp [hid, remove, hget]
  | route call i => exact absurd hk (by simp [Command.domain?])
  | list query => exact absurd hk (by simp [Command.domain?])
  | stop => exact absurd hk (by simp [Command.domain?])

/-- The session of a command's domain becomes what the command answers. -/
theorem get?_react (hk : c.domain? = some k) :
    (r.react fresh c).1.table.get? k = (c.answer fresh (r.table.get? k)).1 :=
  congrArg Prod.fst (react_of_domain hk)

/-- The effects of a command depend on the session of its domain only. -/
theorem effects_react (hk : c.domain? = some k) :
    (r.react fresh c).2 = (c.answer fresh (r.table.get? k)).2 :=
  congrArg Prod.snd (react_of_domain hk)

/-- A command about a domain takes no permit. -/
lemma permits_react (hk : c.domain? = some k) : (r.react fresh c).1.permits = r.permits := by
  have hremove : ∀ domain, (r.remove domain).1.permits = r.permits := fun domain => by
    unfold remove
    split <;> rfl
  cases c with
  | discovered info =>
    simp only [react, discover]
    split
    · rfl
    · split <;> rfl
  | attempted domain id outcome =>
    simp only [react, conclude]
    split
    · split
      · rfl
      · split
        · exact hremove domain
        · rfl
    · rfl
  | lost domain id =>
    simp only [react, lose]
    split
    · rfl
    · split
      · exact hremove domain
      · rfl
  | route call i => exact absurd hk (by simp [Command.domain?])
  | list query => exact absurd hk (by simp [Command.domain?])
  | stop => exact absurd hk (by simp [Command.domain?])

/-- A command asks for nothing but what concerns its own domain. -/
theorem asks_of_mem_react (hk : c.domain? = some k) (hx : x ∈ (r.react fresh c).2) :
    c.Asks (r.table.get? k) fresh k x := by
  -- two of the answers occur more than once
  have hdiscard : ∀ {id outcome}, c = .attempted k id outcome → x ∈ discard outcome →
      c.Asks (r.table.get? k) fresh k x := fun {id outcome} hc hmem => by
    cases outcome with
    | none => exact absurd hmem List.not_mem_nil
    | some link => exact List.mem_singleton.1 hmem ▸ .discard hc
  have hrelease : ∀ {entry}, r.table.get? k = some entry → x ∈ entry.release ++ [.forget k] →
      c.Asks (r.table.get? k) fresh k x := fun {entry} hget hmem => by
    rcases List.mem_append.1 hmem with hmem | hmem
    · cases entry with
      | connecting id address => exact List.mem_singleton.1 hmem ▸ .abort hget
      | home id link => exact List.mem_singleton.1 hmem ▸ .withdraw hget rfl
      | connected id address link => exact List.mem_singleton.1 hmem ▸ .withdraw hget rfl
    · exact List.mem_singleton.1 hmem ▸ .forget
  rw [effects_react hk] at hx
  cases c with
  | discovered info =>
    obtain rfl := Option.some.inj hk
    simp only [Command.answer] at hx
    split at hx
    · exact absurd hx List.not_mem_nil
    · exact List.mem_singleton.1 hx ▸ .forget
    · next hnone _ => exact List.mem_singleton.1 hx ▸ .connect hnone
  | attempted domain id outcome =>
    obtain rfl := Option.some.inj hk
    simp only [Command.answer] at hx
    split at hx
    · next current address hget =>
      split at hx
      · exact hdiscard rfl hx
      · next hid =>
        obtain rfl : current = id := by simpa using hid
        split at hx
        · exact hrelease hget hx
        · exact List.mem_singleton.1 hx ▸ .watch hget
    · exact hdiscard rfl hx
  | lost domain id =>
    obtain rfl := Option.some.inj hk
    simp only [Command.answer] at hx
    split at hx
    · exact absurd hx List.not_mem_nil
    · next entry hget =>
      split at hx
      · exact hrelease hget hx
      · exact absurd hx List.not_mem_nil
  | route call i => exact absurd hk (by simp [Command.domain?])
  | list query => exact absurd hk (by simp [Command.domain?])
  | stop => exact absurd hk (by simp [Command.domain?])

/-! ## A run -/

/-- The registry when it has answered the commands, each with a name for the attempt that it may
begin. -/
def after (r : Registry) (run : List (SessionId × Command)) : Registry :=
  run.foldl (fun r (fresh, c) => (r.react fresh c).1) r

/-- All that is asked for by the commands about a domain, in order. -/
def asked (k : String) (r : Registry) : List (SessionId × Command) → List Effect
  | [] => []
  | (fresh, c) :: run =>
    (if c.domain? = some k then (r.react fresh c).2 else []) ++ asked k (r.react fresh c).1 run

/-- The commands of a run that are about a domain. -/
def about (k : String) (run : List (SessionId × Command)) : List (SessionId × Command) :=
  run.filter fun p => p.2.domain? = some k

variable {run run' : List (SessionId × Command)}

/-- What becomes of a domain, and what is asked for it, follows from its session and from the
commands about it. -/
theorem after_congr (h : r.table.get? k = r'.table.get? k) :
    (r.after run).table.get? k = (r'.after (about k run)).table.get? k ∧
      r.asked k run = r'.asked k (about k run) := by
  induction run generalizing r r' with
  | nil => exact ⟨h, rfl⟩
  | cons p run ih =>
    obtain ⟨fresh, c⟩ := p
    by_cases hk : c.domain? = some k
    · have hrun : about k ((fresh, c) :: run) = (fresh, c) :: about k run :=
        List.filter_cons_of_pos (by simpa using hk)
      have hget : (r.react fresh c).1.table.get? k = (r'.react fresh c).1.table.get? k := by
        rw [get?_react hk, get?_react hk, h]
      have heffects : (r.react fresh c).2 = (r'.react fresh c).2 := by
        rw [effects_react hk, effects_react hk, h]
      rw [hrun, asked, asked, if_pos hk, if_pos hk, heffects, (ih hget).2]
      exact ⟨(ih hget).1, rfl⟩
    · have hrun : about k ((fresh, c) :: run) = about k run :=
        List.filter_cons_of_neg (by simpa using hk)
      have hget : (r.react fresh c).1.table.get? k = r'.table.get? k :=
        (get?_react_of_ne hk).trans h
      rw [hrun, asked, if_neg hk, List.nil_append]
      exact ih hget

/-- Commands about domains leave the permits alone. -/
lemma permits_after (h : ∀ p ∈ run, p.2.domain?.isSome = true) :
    (r.after run).permits = r.permits := by
  induction run generalizing r with
  | nil => rfl
  | cons p run ih =>
    obtain ⟨k, hk⟩ := Option.isSome_iff_exists.1 (h p List.mem_cons_self)
    exact (ih fun q hq => h q (List.mem_cons_of_mem _ hq)).trans (permits_react hk)

/-- Only the order of the commands about the same domain matters. -/
theorem after_eq_of_about_eq (h : ∀ k, about k run = about k run')
    (hrun : ∀ p ∈ run, p.2.domain?.isSome = true)
    (hrun' : ∀ p ∈ run', p.2.domain?.isSome = true) :
    r.after run = r.after run' ∧ ∀ k, r.asked k run = r.asked k run' := by
  have hsame : ∀ k, (r.after run).table.get? k = (r.after run').table.get? k ∧
      r.asked k run = r.asked k run' := fun k => by
    have hr := @after_congr r r k run rfl
    have hr' := @after_congr r r k run' rfl
    rw [h k] at hr
    exact ⟨hr.1.trans hr'.1.symm, hr.2.trans hr'.2.symm⟩
  have htable : (r.after run).table = (r.after run').table := Table.ext_get? fun k => (hsame k).1
  have hpermits : (r.after run).permits = (r.after run').permits :=
    (permits_after hrun).trans (permits_after hrun').symm
  refine ⟨?_, fun k => (hsame k).2⟩
  calc r.after run
      = ⟨(r.after run).table, (r.after run).permits⟩ := rfl
    _ = ⟨(r.after run').table, (r.after run').permits⟩ := by rw [htable, hpermits]
    _ = r.after run' := rfl

section swap

variable {d : Command} {l : String} {f g : SessionId} (hc : c.domain? = some k)
  (hd : d.domain? = some l) (hkl : k ≠ l)
include hc hd hkl

/-- Two commands about different domains may come in either order. -/
theorem after_swap (r : Registry) :
    r.after [(f, c), (g, d)] = r.after [(g, d), (f, c)] ∧
      ∀ m, r.asked m [(f, c), (g, d)] = r.asked m [(g, d), (f, c)] := by
  refine after_eq_of_about_eq (fun m => ?_) (by simp [hc, hd]) (by simp [hc, hd])
  by_cases hm : m = k
  · subst hm
    simp [about, hc, hd, hkl.symm]
  · have hne : k ≠ m := fun he => hm he.symm
    simp [about, List.filter_cons, hc, hne]

/-- The second of two commands about different domains asks for what it would ask for by itself. -/
theorem effects_react_react (r : Registry) :
    ((r.react f c).1.react g d).2 = (r.react g d).2 := by
  have hne : c.domain? ≠ some l := fun he => hkl (Option.some.inj (hc.symm.trans he))
  rw [effects_react hd, effects_react hd, get?_react_of_ne hne]

end swap

end Registry
end Switchboard
