import BenkerVpn.Handler.Step

/-!
# How long a session is kept alive

The expire time of a session is set when the session is created and never renewed. In every run the
packets of a session are therefore accepted exactly as long as they arrive within ten seconds of its
creation (`session_accepted_iff_in_time`), however short the gaps between them are: a session that
exchanges a packet every six seconds is lost after two of them (`activeSession_rejected`).
-/

set_option autoImplicit false

namespace BenkerVpn

open Library.Runs

/-- Every valid packet of the session arrives at most `timeout` seconds after the previous accepted
one, which arrived at time `last`. A packet arrives when its handler reads the clock. -/
def Timely (v : TcpSession) (timeout : Int) : Int → Machine → List Call → Prop
  | _, _, [] => True
  | last, m, c :: calls =>
      (c.OfSession v → m.clock 0 ≤ last + timeout) ∧
        Timely v timeout
          (if c.OfSession v ∧ c.ret m = some .validSession then m.clock 0 else last)
          (perform m c) calls

/-- One packet of a stored session is accepted exactly when it arrives before the expire time. -/
theorem Stored.ret_eq_valid_iff {v : TcpSession} {s : SessionPtr} {m : Machine}
    (hs : Stored v s m) (h : Indexes m) {c : Call} (hown : c.OfSession v) :
    c.ret m = some .validSession ↔ m.clock 0 ≤ v.expire := by
  obtain ⟨⟨sender, seg⟩, hown⟩ := Option.isSome_iff_exists.1 hown
  rw [Call.ret_eq_valid_iff, hs.session_eq h hown]
  by_cases htime : m.clock 0 ≤ v.expire
  · simp [htime]
  · simp [htime]

/-- The packets of a session are accepted exactly as long as they arrive within ten seconds of
its creation, in every run of the two handlers after it; what was called before does not
matter. -/
theorem session_accepted_iff_in_time {pool : PortPool} {m₀ : Machine} (hfresh : Fresh pool m₀)
    {before : List Call} {syn : Call} {s : SessionPtr}
    (hopens : Opens (exec perform m₀ before) syn s) {after : List Call}
    (hafter : ∀ c ∈ after, c.IsPacket) :
    let m := exec perform m₀ before
    let v := (perform m syn).heap s
    Permitted perform (fun m' c => c.OfSession v → c.ret m' = some .validSession)
        (perform m syn) after ↔
      Permitted perform (fun m' c => c.OfSession v → m'.clock 0 ≤ m.clock 0 + 10)
        (perform m syn) after := by
  intro m v
  have hidx : Indexes m := indexes_of_run hfresh before
  obtain ⟨hstored, hexpire⟩ := hopens.stored hidx
  -- the invariant of the run: the session stays where it was stored, with its first expire time
  apply permitted_congr fun m' => Indexes m' ∧ Stored v s m'
  · intro m' c hc h
    exact ⟨h.1.perform c, h.2.perform h.1 (hafter c hc)⟩
  · intro m' c hc h
    apply forall_congr'
    intro hown
    rw [← hexpire]
    exact h.2.ret_eq_valid_iff h.1 hown
  · exact ⟨hidx.perform syn, hstored⟩

/-- A handshake within ten seconds is accepted. -/
theorem handshake_in_time_accepted :
    Permitted perform
      (fun m' c => c.OfSession ((perform (freshMachine smallPool fun k => 2 * k)
        (clientCall sampleSyn)).heap 0) → c.ret m' = some .validSession)
      (perform (freshMachine smallPool fun k => 2 * k) (clientCall sampleSyn))
      [worldCall sampleSynAck, clientCall sampleAck] := by
  have hopens : Opens (exec perform (freshMachine smallPool fun k => 2 * k) [])
      (clientCall sampleSyn) 0 :=
    ⟨⟨sampleSyn, by decide +kernel⟩, by decide +kernel,
      (freshMachine_fresh smallPool _).not_inClient 0⟩
  apply (session_accepted_iff_in_time (freshMachine_fresh smallPool _) hopens _).2
  · exact ⟨fun _ => by decide +kernel, fun _ => by decide +kernel, trivial⟩
  · intro c hc
    simp only [List.mem_cons, List.not_mem_nil, or_false] at hc
    rcases hc with rfl | rfl <;> trivial

/-- A packet arrives six seconds after its predecessor each time; the third one is rejected. -/
theorem activeSession_rejected :
    let m₀ := freshMachine smallPool fun k => 6 * ((k - 1 : Nat) : Int)
    let m := perform m₀ (clientCall sampleSyn)
    Fresh smallPool m₀ ∧ Monotone m₀.clock ∧ Opens m₀ (clientCall sampleSyn) 0 ∧
      Timely (m.heap 0) 10 (m₀.clock 0) m [worldCall sampleSynAck, clientCall sampleAck] ∧
      ¬ Permitted perform (fun m' c => c.OfSession (m.heap 0) → c.ret m' = some .validSession) m
        [worldCall sampleSynAck, clientCall sampleAck] := by
  intro m₀ m
  refine ⟨freshMachine_fresh smallPool _, ?_, ?_, ?_, ?_⟩
  · intro a b hab
    show 6 * ((a - 1 : Nat) : Int) ≤ 6 * ((b - 1 : Nat) : Int)
    omega
  · exact ⟨⟨sampleSyn, by decide +kernel⟩, by decide +kernel,
      (freshMachine_fresh smallPool _).not_inClient 0⟩
  · exact ⟨fun _ => by decide +kernel, fun _ => by decide +kernel, trivial⟩
  · intro h
    exact absurd (h.2.1 (by decide +kernel)) (by decide +kernel)

end BenkerVpn
