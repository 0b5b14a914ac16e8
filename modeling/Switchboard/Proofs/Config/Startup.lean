import Switchboard.Config.Basic
import Switchboard.Discovery.Listener
import Switchboard.Discovery.Monitor
import Switchboard.Proofs.Domain.Heartbeat
import Switchboard.Proofs.Exchange.Transitions

/-!
# What a valid configuration is good for

`Config.validate` is to check all that the rest relies on: the accessors, the listener, the timers
and the start of the exchange.

* `Config.Valid` is what it checks, and `validate_eq_ok_iff` says so.
* `start_of_name` is the start of an exchange when the name and the number of permits are in order.
* `startup_of_validate` goes through everything that relies on the check. The one thing that can
  still go wrong is a number of permits that cannot be counted.
-/

namespace Switchboard

namespace Config

/-- What is asked of a configuration. -/
structure Valid (c : Config) : Prop where
  name : checkDomainName c.domain.name = .ok ()
  realm : c.domain.realm ≠ ""
  router : ∃ endpoint, c.routerAddress? = .ok endpoint
  group : ∃ endpoint, c.multicastGroup? = .ok endpoint
  heartbeats : 0 < c.discovery.heartbeatPeriodMs.toNat
  polls : 0 < c.discovery.interfacePollPeriodMs.toNat
  buffer : Heartbeat.maxSize ≤ c.discovery.receiveBufferSize.toNat
  calls : 0 < c.routing.maxInFlightCalls.toNat

variable {c : Config}

/-- A requirement is met when its condition holds. -/
lemma require_eq_ok_iff {condition : Bool} {fault : Fault} {u : Unit} :
    require condition fault = .ok u ↔ condition = true := by
  cases condition <;> simp [require]

/-- A check in two parts is passed when both are. -/
lemma bind_eq_ok_iff {α : Type} {x : Except Fault α} {f : α → Except Fault Unit} :
    (x >>= f) = .ok () ↔ ∃ a, x = .ok a ∧ f a = .ok () := by
  cases x <;> simp [bind, Except.bind]

/-- The check passes exactly if the configuration is valid. -/
theorem validate_eq_ok_iff : c.validate = .ok () ↔ c.Valid := by
  unfold validate
  split
  · next fault hfault =>
    refine ⟨fun h => absurd h (by simp), fun h => ?_⟩
    exact absurd (hfault.symm.trans h.name) (by simp)
  · next hname =>
    simp only [bind_eq_ok_iff, require_eq_ok_iff, decide_eq_true_eq]
    constructor
    · rintro ⟨-, hrealm, router, hrouter, group, hgroup, -, hheartbeats, -, hpolls, -, hbuffer,
        hcalls⟩
      exact ⟨hname, hrealm, ⟨router, hrouter⟩, ⟨group, hgroup⟩, hheartbeats, hpolls, hbuffer,
        hcalls⟩
    · rintro ⟨-, hrealm, ⟨router, hrouter⟩, ⟨group, hgroup⟩, hheartbeats, hpolls, hbuffer, hcalls⟩
      exact ⟨(), hrealm, router, hrouter, group, hgroup, (), hheartbeats, (), hpolls, (), hbuffer,
        hcalls⟩

/-- A valid configuration has a port to advertise. -/
lemma Valid.advertisedPort? (v : c.Valid) : ∃ port, c.advertisedPort? = .ok port := by
  obtain ⟨router, hrouter⟩ := v.router
  unfold Config.advertisedPort?
  split
  · next port _ => exact ⟨port, rfl⟩
  · exact ⟨router.port, by rw [hrouter]; rfl⟩

/-- With a large enough buffer the listener accepts every heartbeat that can be written. -/
theorem Valid.limit (v : c.Valid) :
    Listener.limit c.discovery.receiveBufferSize.toNat = Heartbeat.maxSize :=
  Nat.min_eq_right v.buffer

end Config

/-! ## The exchange -/

namespace Exchange

/-- With a name that is one, and with permits, only two things can go wrong. -/
theorem start_of_name {name : String} {permits : Nat} (hname : checkDomainName name = .ok ())
    (hpermits : 0 < permits) (refusal : Option SessionError) :
    start name permits refusal =
      match refusal with
      | some error => .error (.notProvided error)
      | none =>
        if maxPermits < permits then .error .tooManyPermits
        else
          .ok { registry := .start name 0 ⟨homeConnection, 1⟩ permits
                nextSession := 1
                provider := (({} : Provider).provide (DomainInfo.routePattern name)).2 } := by
  unfold start
  rw [hname]
  simp only [Nat.ne_of_gt hpermits, if_false]
  rfl

end Exchange

/-! ## All that relies on the check -/

/-- A configuration that passes the check has a router, a group and a port; its listener accepts
every heartbeat that can be written; its timers can tick; and its exchange starts with the home
domain, unless there are more permits than can be counted. If it does not start, this is the reason,
or the home connection has refused the pattern. -/
theorem Config.startup_of_validate {c : Config} (h : c.validate = .ok ()) :
    (∃ router group port, c.routerAddress? = .ok router ∧ c.multicastGroup? = .ok group ∧
      c.advertisedPort? = .ok port) ∧
    Listener.limit c.discovery.receiveBufferSize.toNat = Heartbeat.maxSize ∧
    (∀ info datagram, Heartbeat.encode info = .ok datagram →
      datagram.length ≤ Listener.limit c.discovery.receiveBufferSize.toNat ∧
      Listener.truncate c.discovery.receiveBufferSize.toNat datagram = datagram) ∧
    Monitor.canTick c.discovery.heartbeatPeriodMs.toNat = true ∧
    Monitor.canTick c.discovery.interfacePollPeriodMs.toNat = true ∧
    (c.routing.maxInFlightCalls.toNat ≤ Exchange.maxPermits →
      ∃ e, Exchange.start c.domain.name c.routing.maxInFlightCalls.toNat none = .ok e ∧
        e.running = true ∧ e.registry.permits = c.routing.maxInFlightCalls.toNat ∧
        (∃ link, e.registry.route? c.domain.name = some link) ∧
        e.provider.patterns = [DomainInfo.routePattern c.domain.name]) ∧
    ∀ refusal error,
      Exchange.start c.domain.name c.routing.maxInFlightCalls.toNat refusal = .error error →
      (∃ cause, refusal = some cause ∧ error = .notProvided cause) ∨
        (error = .tooManyPermits ∧ Exchange.maxPermits < c.routing.maxInFlightCalls.toNat) := by
  have v := validate_eq_ok_iff.1 h
  obtain ⟨router, hrouter⟩ := v.router
  obtain ⟨group, hgroup⟩ := v.group
  obtain ⟨port, hport⟩ := v.advertisedPort?
  have hstart := Exchange.start_of_name v.name v.calls
  refine ⟨⟨router, group, port, hrouter, hgroup, hport⟩, v.limit, ?_, ?_, ?_, ?_, ?_⟩
  · intro info datagram hencode
    obtain ⟨rfl, hlength⟩ := Heartbeat.of_encode hencode
    rw [Listener.truncate, v.limit]
    exact ⟨hlength, List.take_of_length_le (by omega)⟩
  · exact decide_eq_true v.heartbeats
  · exact decide_eq_true v.polls
  · intro hpermits
    refine ⟨_, (hstart none).trans (if_neg (Nat.not_lt.2 hpermits)), rfl, rfl, ?_, rfl⟩
    refine ⟨⟨Exchange.homeConnection, 1⟩, ?_⟩
    rw [Registry.route?, Exchange.get?_start, if_pos rfl]
    rfl
  · intro refusal error herror
    -- the name and the permits are all that can be wrong without a refusal, and both are checked
    rw [hstart] at herror
    cases refusal with
    | some cause => exact .inl ⟨cause, rfl, (Except.error.inj herror).symm⟩
    | none =>
      by_cases hpermits : Exchange.maxPermits < c.routing.maxInFlightCalls.toNat
      · simp only [hpermits, if_true] at herror
        exact .inr ⟨(Except.error.inj herror).symm, hpermits⟩
      · simp only [hpermits, if_false] at herror
        exact absurd herror (by simp)

namespace Config

/-- The exchange of the default settings starts. -/
theorem startup_of_default : ({} : Config).validate = .ok () ∧
    Listener.limit ({} : Config).discovery.receiveBufferSize.toNat = 512 ∧
    ∃ e, Exchange.start "default" 64 none = .ok e ∧ e.provider.patterns = ["default/"] := by
  have hvalid : ({} : Config).validate = .ok () := by rfl
  obtain ⟨-, hlimit, -, -, -, hstart, -⟩ := startup_of_validate hvalid
  obtain ⟨e, he, -, -, -, hpatterns⟩ := hstart (by decide)
  exact ⟨hvalid, hlimit, e, he, hpatterns⟩

/-- The default settings with one permit more than can be counted. -/
def excessive : Config := { routing := { maxInFlightCalls := 2305843009213693952 } }

/-- The check lets a number of permits pass with which the exchange does not start. -/
theorem unstarted_of_excessive : excessive.validate = .ok () ∧
    Exchange.start excessive.domain.name excessive.routing.maxInFlightCalls.toNat none
      = .error .tooManyPermits := by
  have hvalid : excessive.validate = .ok () := by rfl
  exact ⟨hvalid, by rfl⟩

end Config
end Switchboard
