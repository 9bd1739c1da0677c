import BenkerVpn.Model.Setup

/-!
# What the set-up leaves behind

`setup_tun` returns a descriptor exactly if it has done all that the device needs, and then it
leaves nothing else open. If it fails, it closes the device and its sockets, except for one: the
control socket stays open exactly if one of the two calls of `do_chflags` on flags has failed
(`setupTun_exact`). A client that gets less than both of its descriptors does not survive its first
iteration (`client_start`), and the server does not get to it (`server_start`). So the sockets that
are left open on the way do not pile up.
-/

set_option autoImplicit false

namespace BenkerVpn

open Library.Descriptors

/-! ## Calls -/

/-- What a call is about. -/
inductive Part where
  | socket
  | device
  | flags
  | netlink
  | address
  | route
  deriving DecidableEq

def Syscall.part : Syscall → Part
  | .socket _ _ | .bindUdp _ | .bindRaw => .socket
  | .openTun | .tunSetIff _ => .device
  | .getIfFlags | .setIfFlags _ => .flags
  | .rtnlOpen => .netlink
  | .newAddr _ _ => .address
  | .newRoute _ _ => .route

/-- All calls are about one of the parts. -/
def About (parts : List Part) (calls : List (Syscall × Outcome)) : Prop :=
  ∀ c ∈ calls, c.1.part ∈ parts

/-- A call on flags has failed. -/
def FlagsFailed (calls : List (Syscall × Outcome)) : Prop :=
  ∃ r : Syscall, r.part = .flags ∧ (r, .failed) ∈ calls

section Calls

variable {parts parts' : List Part} {calls calls' : List (Syscall × Outcome)}

theorem about_nil : About parts [] := by
  rintro c ⟨⟩

theorem about_cons {c : Syscall × Outcome} (h : c.1.part ∈ parts) (hrest : About parts calls) :
    About parts (c :: calls) := by
  intro c' hc'
  rcases List.mem_cons.1 hc' with rfl | hmem
  · exact h
  · exact hrest c' hmem

theorem About.append (h : About parts calls) (h' : About parts calls') :
    About parts (calls ++ calls') := by
  intro c hc
  rcases List.mem_append.1 hc with hmem | hmem
  · exact h c hmem
  · exact h' c hmem

theorem About.mono (h : About parts calls) (hsub : parts ⊆ parts') : About parts' calls :=
  fun c hc => hsub (h c hc)

/-- A call about something else has not been made. -/
theorem About.notMem (h : About parts calls) {r : Syscall} (hr : r.part ∉ parts) (o : Outcome) :
    (r, o) ∉ calls :=
  fun hmem => hr (h _ hmem)

theorem About.not_flagsFailed (h : About parts calls) (hparts : Part.flags ∉ parts) :
    ¬ FlagsFailed calls := by
  rintro ⟨r, hr, hmem⟩
  exact h.notMem (hr ▸ hparts) .failed hmem

theorem flagsFailed_append :
    FlagsFailed (calls ++ calls') ↔ FlagsFailed calls ∨ FlagsFailed calls' := by
  constructor
  · rintro ⟨r, hr, hmem⟩
    exact (List.mem_append.1 hmem).imp (fun h => ⟨r, hr, h⟩) fun h => ⟨r, hr, h⟩
  · rintro (⟨r, hr, hmem⟩ | ⟨r, hr, hmem⟩)
    · exact ⟨r, hr, List.mem_append_left _ hmem⟩
    · exact ⟨r, hr, List.mem_append_right _ hmem⟩

end Calls

/-! ## The flags of the device -/

/-- Of the flags in the mask each gets the new value, the others stay. -/
theorem changedFlags_eq (ifrFlags : BitVec 16) (flags mask : BitVec 32) :
    changedFlags ifrFlags flags mask =
      (ifrFlags &&& ~~~(mask.setWidth 16)) ||| (mask.setWidth 16 &&& flags.setWidth 16) := by
  ext i hi
  have h32 : i < 32 := by omega
  simp [changedFlags, BitVec.getElem_signExtend, hi, h32]

/-- The flags are written only if that changes them. -/
theorem changedFlags_of_same {ifrFlags : BitVec 16} {flags mask : BitVec 32}
    (h : (ifrFlags.signExtend 32 ^^^ flags) &&& mask = 0) :
    changedFlags ifrFlags flags mask = ifrFlags := by
  rw [changedFlags_eq]
  ext i hi
  have hbit : ((ifrFlags[i] ^^ flags.getLsbD i) && mask.getLsbD i) = false := by
    have h32 : i < 32 := by omega
    have := congrArg (fun v => v.getLsbD i) h
    simpa [BitVec.getElem_signExtend, h32, hi] using this
  simp only [BitVec.getElem_or, BitVec.getElem_and, BitVec.getElem_not, BitVec.getElem_setWidth]
  -- a flag in the mask has its new value already
  cases hmask : mask.getLsbD i with
  | false => simp
  | true =>
      rw [hmask, Bool.and_true, bne_eq_false_iff_eq] at hbit
      simp [hbit]

/-! ## Functions that take one descriptor -/

/-- There are sockets of three families to try. -/
theorem getCtlFd_spec :
    Triple ∅ getCtlFd fun fd k calls => About [.socket] calls ∧ (fd = none ∧ k = ∅ ∨
      ∃ n family, fd = some n ∧ k = {n} ∧ (.socket family 0, .opened n) ∈ calls) := by
  have hsocket : ∀ family o, About [.socket] [(Syscall.socket family 0, o)] := fun family o =>
    about_cons List.mem_cons_self about_nil
  refine (triple_acquire_only _).bind ?_
  rintro _ _ _ (⟨rfl, rfl, rfl⟩ | ⟨n, rfl, rfl, rfl⟩)
  · refine (triple_acquire_only _).bind ?_
    rintro _ _ _ (⟨rfl, rfl, rfl⟩ | ⟨n, rfl, rfl, rfl⟩)
    · refine (triple_acquire_only _).mono ?_
      rintro fd k _ (⟨rfl, rfl, rfl⟩ | ⟨n, rfl, rfl, rfl⟩)
      · exact ⟨(hsocket _ _).append ((hsocket _ _).append (hsocket _ _)), Or.inl ⟨rfl, rfl⟩⟩
      · exact ⟨(hsocket _ _).append ((hsocket _ _).append (hsocket _ _)),
          Or.inr ⟨n, .inet6, rfl, rfl, by simp⟩⟩
    · exact triple_pure ⟨(hsocket _ _).append ((hsocket _ _).append about_nil),
        Or.inr ⟨n, .packet, rfl, rfl, by simp⟩⟩
  · exact triple_pure ⟨(hsocket _ _).append about_nil, Or.inr ⟨n, .inet, rfl, rfl, by simp⟩⟩

/-- The flags of the device are known to be as asked for: they were read, and written if that
changes them. -/
def FlagsSet (devFlags : BitVec 16) (flags mask : BitVec 32) (calls : List (Syscall × Outcome)) :
    Prop :=
  (.getIfFlags, .done) ∈ calls ∧
    (changedFlags devFlags flags mask = devFlags ∨
      (.setIfFlags (changedFlags devFlags flags mask), .done) ∈ calls)

/-- How `do_chflags` ends: the control socket stays open if a call on flags has failed. -/
inductive FlagsEnd (devFlags : BitVec 16) (flags mask : BitVec 32)
    (calls : List (Syscall × Outcome)) : Bool → Finset Nat → Prop
  | done (hset : FlagsSet devFlags flags mask calls) (hok : ¬ FlagsFailed calls) :
      FlagsEnd devFlags flags mask calls true ∅
  | refused (hok : ¬ FlagsFailed calls) : FlagsEnd devFlags flags mask calls false ∅
  | leaked (ctl : Nat) (family : Family) (hctl : (.socket family 0, .opened ctl) ∈ calls)
      (hfailed : FlagsFailed calls) : FlagsEnd devFlags flags mask calls false {ctl}

theorem doChflags_spec (devFlags : BitVec 16) (flags mask : BitVec 32) :
    Triple ∅ (doChflags devFlags flags mask) fun ok k calls =>
      About [.socket, .flags] calls ∧ FlagsEnd devFlags flags mask calls ok k := by
  have hflags : ∀ {r : Syscall} {o : Outcome}, r.part = .flags → About [.socket, .flags] [(r, o)] :=
    fun hr => about_cons (by rw [hr]; decide) about_nil
  have hsucceeded : ∀ r : Syscall, ¬ FlagsFailed [(r, .done)] := by
    rintro r ⟨r', -, hmem⟩
    cases List.mem_singleton.1 hmem
  refine getCtlFd_spec.bind ?_
  rintro _ _ ctl ⟨hctl, hfd⟩
  have hctl' : About [.socket, .flags] ctl := hctl.mono (by decide)
  have hno := hctl.not_flagsFailed (by decide)
  rcases hfd with ⟨rfl, rfl⟩ | ⟨n, family, rfl, rfl, hopened⟩
  · -- there is no control socket
    apply triple_pure
    rw [List.append_nil]
    exact ⟨hctl', .refused hno⟩
  refine (triple_call _).bind ?_
  rintro (_ | _) _ _ ⟨rfl, rfl⟩
  · -- the flags cannot be read
    apply triple_pure
    rw [List.append_nil]
    refine ⟨hctl'.append (hflags rfl), .leaked n family (List.mem_append_left _ hopened) ?_⟩
    exact flagsFailed_append.2 (Or.inr ⟨.getIfFlags, rfl, List.mem_cons_self⟩)
  rw [if_pos rfl]
  split
  case isFalse hsame =>
    -- nothing to change
    refine (triple_release_only n true).mono ?_
    rintro _ _ _ ⟨rfl, rfl, rfl⟩
    rw [List.append_nil]
    refine ⟨hctl'.append (hflags rfl), .done ⟨?_, Or.inl ?_⟩ ?_⟩
    · exact List.mem_append_right _ List.mem_cons_self
    · exact changedFlags_of_same (not_not.1 hsame)
    · rw [flagsFailed_append]
      exact not_or.2 ⟨hno, hsucceeded _⟩
  case isTrue hchange =>
    refine (triple_call _).bind ?_
    rintro (_ | _) _ _ ⟨rfl, rfl⟩
    · -- they cannot be written
      apply triple_pure
      rw [List.append_nil]
      refine ⟨hctl'.append ((hflags rfl).append (hflags rfl)),
        .leaked n family (List.mem_append_left _ hopened) ?_⟩
      refine flagsFailed_append.2 (Or.inr (flagsFailed_append.2 (Or.inr ?_)))
      exact ⟨_, rfl, List.mem_cons_self⟩
    · refine (triple_release_only n true).mono ?_
      rintro _ _ _ ⟨rfl, rfl, rfl⟩
      rw [List.append_nil]
      refine ⟨hctl'.append ((hflags rfl).append (hflags rfl)), .done ⟨?_, Or.inr ?_⟩ ?_⟩
      · exact List.mem_append_right _ List.mem_cons_self
      · exact List.mem_append_right _ (List.mem_cons_of_mem _ List.mem_cons_self)
      · rw [flagsFailed_append, flagsFailed_append]
        exact not_or.2 ⟨hno, not_or.2 ⟨hsucceeded _, hsucceeded _⟩⟩

/-- `TUNSETIFF` for a device without packet information. -/
def tunRequest (stack : BitVec 16) : Syscall :=
  .tunSetIff ((stack ||| (iffNoPi ||| iffTun)) ||| iffTunExcl)

theorem addTun_spec (stack : BitVec 16) :
    Triple ∅ (addTun stack) fun fd k calls => About [.device] calls ∧ (fd = none ∧ k = ∅ ∨
      ∃ n, fd = some n ∧ k = {n} ∧ (tunRequest stack, .done) ∈ calls ∧
        ∀ m, (.openTun, .opened m) ∈ calls ↔ m = n) := by
  have hdevice : ∀ {r : Syscall} {o : Outcome}, r.part = .device → About [.device] [(r, o)] :=
    fun hr => about_cons (by rw [hr]; decide) about_nil
  refine (triple_acquire_only _).bind ?_
  rintro _ _ _ (⟨rfl, rfl, rfl⟩ | ⟨n, rfl, rfl, rfl⟩)
  · exact triple_pure ⟨(hdevice rfl).append about_nil, Or.inl ⟨rfl, rfl⟩⟩
  refine (triple_call _).bind ?_
  rintro (_ | _) _ _ ⟨rfl, rfl⟩
  · refine (triple_release_only n none).mono ?_
    rintro _ _ _ ⟨rfl, rfl, rfl⟩
    rw [List.append_nil]
    exact ⟨(hdevice rfl).append (hdevice rfl), Or.inl ⟨rfl, rfl⟩⟩
  · refine triple_pure ⟨(hdevice rfl).append ((hdevice rfl).append about_nil),
      Or.inr ⟨n, rfl, rfl, ?_, ?_⟩⟩
    · exact List.mem_append_right _ List.mem_cons_self
    · intro m
      simp

/-! ## The netlink library -/

/-- What the functions of the netlink library do with descriptors: a handle that could be opened has
one, a request is sent or not, and closing a handle gives its descriptor back. -/
structure Libnetlink.Lawful (lib : Libnetlink) : Prop where
  rtnlOpen : Triple ∅ lib.rtnlOpen fun fd k calls => Only fd k ∧ ∀ c ∈ calls, c.1 = .rtnlOpen
  rtnlTalk : ∀ own request, Triple own (lib.rtnlTalk request) fun ok k calls =>
    k = own ∧ calls = [(request, outcome ok)]
  rtnlClose : ∀ own fd, fd ∈ own → Triple own (lib.rtnlClose fd) fun _ k calls =>
    k = own.erase fd ∧ calls = []

section Netlink

variable {lib : Libnetlink} (hlib : lib.Lawful)
include hlib

/-- A request to the kernel's routing closes its socket on every way. -/
theorem rtnlRequest_spec (request : Syscall) (hrequest : request.part ≠ .netlink) :
    Triple ∅ (rtnlRequest lib request) fun ok k calls => About [.netlink, request.part] calls ∧
      k = ∅ ∧ (ok = true ↔ (request, .done) ∈ calls) := by
  have hsub : [Part.netlink] ⊆ [.netlink, request.part] := List.cons_subset_cons _ (by simp)
  have hnot : request.part ∉ [Part.netlink] := fun hmem => hrequest (List.mem_singleton.1 hmem)
  refine hlib.rtnlOpen.bind ?_
  rintro _ _ c ⟨⟨rfl, rfl⟩ | ⟨n, rfl, rfl⟩, hcalls⟩
  all_goals
    have hopen : About [.netlink] c := by
      intro x hx
      rw [hcalls x hx]
      exact List.mem_cons_self
  · apply triple_pure
    rw [List.append_nil]
    exact ⟨hopen.mono hsub, rfl, iff_of_false Bool.false_ne_true (hopen.notMem hnot .done)⟩
  refine (hlib.rtnlTalk _ _).bind ?_
  rintro ok _ _ ⟨rfl, rfl⟩
  refine (hlib.rtnlClose _ _ (Finset.mem_singleton_self n)).bind ?_
  rintro _ _ _ ⟨rfl, rfl⟩
  apply triple_pure
  rw [List.append_nil, List.append_nil]
  refine ⟨(hopen.mono hsub).append (about_cons (by simp) about_nil), by simp, ?_⟩
  rw [List.mem_append, or_iff_right (hopen.notMem hnot .done), List.mem_singleton, Prod.mk.injEq,
    eq_comm (a := Outcome.done), outcome_eq_done_iff]
  exact ⟨fun h => ⟨rfl, h⟩, fun h => h.2⟩

end Netlink

/-! ## The device -/

/-- Everything that the device needs has been done. -/
structure DeviceReady (stack devFlags : BitVec 16) (calls : List (Syscall × Outcome)) : Prop where
  device : (tunRequest stack, .done) ∈ calls
  up : FlagsSet devFlags iffUp iffUp calls
  address : (.newAddr tunip 24, .done) ∈ calls
  route : (.newRoute tunip 0, .done) ∈ calls

/-- The route is not there yet, and no call on flags has failed. -/
structure Pending (calls : List (Syscall × Outcome)) : Prop where
  route : (.newRoute tunip 0, .done) ∉ calls
  flags : ¬ FlagsFailed calls

/-- How `setup_tun` ends. -/
inductive SetupEnd (stack devFlags : BitVec 16) (calls : List (Syscall × Outcome)) :
    Option Nat → Finset Nat → Prop
  | done (fd : Nat) (htun : (.openTun, .opened fd) ∈ calls)
      (hall : DeviceReady stack devFlags calls) (hflags : ¬ FlagsFailed calls) :
      SetupEnd stack devFlags calls (some fd) {fd}
  | failed (hpending : Pending calls) : SetupEnd stack devFlags calls none ∅
  | leaked (ctl : Nat) (family : Family) (hctl : (.socket family 0, .opened ctl) ∈ calls)
      (htun : (.openTun, .opened ctl) ∉ calls) (hroute : (.newRoute tunip 0, .done) ∉ calls)
      (hfailed : FlagsFailed calls) : SetupEnd stack devFlags calls none {ctl}

section Parts

variable {parts : List Part} {calls calls' : List (Syscall × Outcome)}

theorem About.pending (h : About parts calls) (hroute : Part.route ∉ parts)
    (hflags : Part.flags ∉ parts) : Pending calls :=
  ⟨h.notMem (r := .newRoute tunip 0) hroute .done, h.not_flagsFailed hflags⟩

theorem Pending.append (h : Pending calls) (h' : Pending calls') : Pending (calls ++ calls') := by
  constructor
  · rw [List.mem_append]
    exact not_or.2 ⟨h.route, h'.route⟩
  · rw [flagsFailed_append]
    exact not_or.2 ⟨h.flags, h'.flags⟩

theorem FlagsSet.mono {devFlags : BitVec 16} {flags mask : BitVec 32}
    (h : FlagsSet devFlags flags mask calls) (hsub : calls ⊆ calls') :
    FlagsSet devFlags flags mask calls' :=
  ⟨hsub h.1, h.2.imp_right fun hmem => hsub hmem⟩

end Parts

section Device

variable {lib : Libnetlink} (hlib : lib.Lawful) {stack devFlags : BitVec 16}
include hlib

/-- What follows once the device is up, with the descriptor of the device in hand. -/
theorem setupTun_up {fd : Nat} {c : List (Syscall × Outcome)} (hpending : Pending c)
    (htun : (.openTun, .opened fd) ∈ c) (hdevice : (tunRequest stack, .done) ∈ c)
    (hset : FlagsSet devFlags iffUp iffUp c) :
    Triple {fd}
      (do
        if ← setDefaultIpAddr lib then
          if ← setDefaultRoute lib then pure (some fd) else failSetupTun fd
        else failSetupTun fd)
      fun r k calls => SetupEnd stack devFlags (c ++ calls) r k := by
  refine ((rtnlRequest_spec hlib (.newAddr tunip 24) (by decide)).beside fd).bind ?_
  rintro address _ c₁ ⟨_, rfl, -, h₁, rfl, haddress⟩
  have hpending₁ := hpending.append (h₁.pending (by decide) (by decide))
  cases address with
  | false =>
      refine (triple_release_only fd none).mono ?_
      rintro _ _ _ ⟨rfl, rfl, rfl⟩
      rw [List.append_nil]
      exact .failed hpending₁
  | true =>
      refine ((rtnlRequest_spec hlib (.newRoute tunip 0) (by decide)).beside fd).bind ?_
      rintro route _ c₂ ⟨_, rfl, -, h₂, rfl, hroute⟩
      have hflags₂ := h₂.not_flagsFailed (by decide)
      cases route with
      | false =>
          refine (triple_release_only fd none).mono ?_
          rintro _ _ _ ⟨rfl, rfl, rfl⟩
          rw [List.append_nil, ← List.append_assoc]
          exact .failed (hpending₁.append ⟨fun hmem => Bool.false_ne_true (hroute.2 hmem), hflags₂⟩)
      | true =>
          apply triple_pure
          rw [List.append_nil, ← List.append_assoc]
          have hfirst : c ⊆ (c ++ c₁) ++ c₂ := fun _ hmem =>
            List.mem_append_left _ (List.mem_append_left _ hmem)
          refine .done fd (hfirst htun) ⟨hfirst hdevice, hset.mono hfirst, ?_, ?_⟩ ?_
          · exact List.mem_append_left _ (List.mem_append_right _ (haddress.1 rfl))
          · exact List.mem_append_right _ (hroute.1 rfl)
          · rw [flagsFailed_append]
            exact not_or.2 ⟨hpending₁.flags, hflags₂⟩

theorem setupTun_spec (stack devFlags : BitVec 16) :
    Triple ∅ (setupTun lib stack devFlags) fun fd k calls =>
      SetupEnd stack devFlags calls fd k := by
  refine (addTun_spec stack).bind ?_
  rintro _ _ c₁ ⟨h₁, hfd⟩
  have hpending₁ := h₁.pending (by decide) (by decide)
  rcases hfd with ⟨rfl, rfl⟩ | ⟨fd, rfl, rfl, hdevice, htun⟩
  · apply triple_pure
    rw [List.append_nil]
    exact .failed hpending₁
  -- the device is there
  refine ((doChflags_spec devFlags iffUp iffUp).beside fd).bind ?_
  rintro up _ c₂ ⟨k, rfl, hfd, h₂, hend⟩
  have hroute₂ : (.newRoute tunip 0, .done) ∉ c₂ := h₂.notMem (by decide) .done
  cases hend with
  | refused hflags₂ =>
      refine (triple_release_insert hfd none).mono ?_
      rintro _ _ _ ⟨rfl, rfl, rfl⟩
      rw [List.append_nil]
      exact .failed (hpending₁.append ⟨hroute₂, hflags₂⟩)
  | leaked ctl family hctl hfailed =>
      refine (triple_release_insert hfd none).mono ?_
      rintro _ _ _ ⟨rfl, rfl, rfl⟩
      rw [List.append_nil]
      refine .leaked ctl family (List.mem_append_right _ hctl) ?_ ?_
        (flagsFailed_append.2 (Or.inr hfailed))
      · -- the device has another descriptor
        rw [List.mem_append, htun]
        rintro (rfl | hmem)
        · exact hfd (Finset.mem_singleton_self _)
        · exact h₂.notMem (r := .openTun) (by decide) _ hmem
      · rw [List.mem_append]
        exact not_or.2 ⟨hpending₁.route, hroute₂⟩
  | done hset hflags₂ =>
      refine (setupTun_up hlib (hpending₁.append ⟨hroute₂, hflags₂⟩)
        (List.mem_append_left _ ((htun fd).2 rfl)) (List.mem_append_left _ hdevice)
        (hset.mono (List.subset_append_right _ _))).mono ?_
      intro r k calls hend
      rwa [List.append_assoc] at hend

end Device

/-- `setup_tun` configures the device or fails, and what it leaves open is known. It returns a
descriptor exactly if the device is there, is up and has its address and its route, and then that of
the device is all that is left open. If it fails, the device is closed, and a control socket is left
open exactly if a call on flags has failed. -/
theorem setupTun_exact {lib : Libnetlink} (hlib : lib.Lawful) (stack devFlags : BitVec 16)
    (p : Process Syscall) :
    let r := setupTun lib stack devFlags p
    ∃ kept calls, Disjoint kept p.used ∧ r.2.used = kept ∪ p.used ∧ r.2.log = p.log ++ calls ∧
      (r.1.isSome ↔ DeviceReady stack devFlags calls) ∧
      (∀ fd, r.1 = some fd → kept = {fd} ∧ (.openTun, .opened fd) ∈ calls) ∧
      (r.1 = none →
        (∀ fd, (.openTun, .opened fd) ∈ calls → fd ∉ kept) ∧
        (FlagsFailed calls →
          ∃ family ctl, kept = {ctl} ∧ (.socket family 0, .opened ctl) ∈ calls) ∧
        (¬ FlagsFailed calls → kept = ∅)) := by
  intro r
  obtain ⟨kept, calls, hdisj, hused, hlog, hend⟩ := (setupTun_spec hlib stack devFlags).run p
  refine ⟨kept, calls, hdisj, hused, hlog, ?_⟩
  have hr : (setupTun lib stack devFlags p).1 = r.1 := rfl
  rw [hr] at hend
  generalize r.1 = fd at hend
  cases hend with
  | done fd htun hall hflags =>
      refine ⟨iff_of_true rfl hall, fun fd' hfd => ?_, by rintro ⟨⟩⟩
      obtain rfl := Option.some.inj hfd
      exact ⟨rfl, htun⟩
  | failed hpending =>
      refine ⟨iff_of_false Bool.false_ne_true fun hall => hpending.route hall.route,
        by rintro fd ⟨⟩, fun _ => ⟨fun fd _ => Finset.notMem_empty fd, fun hfailed => ?_,
          fun _ => rfl⟩⟩
      exact absurd hfailed hpending.flags
  | leaked ctl family hctl htun hroute hfailed =>
      refine ⟨iff_of_false Bool.false_ne_true fun hall => hroute hall.route, by rintro fd ⟨⟩,
        fun _ => ⟨fun fd hfd hmem => ?_, fun _ => ⟨family, ctl, rfl, hctl⟩, fun hno => ?_⟩⟩
      · obtain rfl := Finset.mem_singleton.1 hmem
        exact htun hfd
      · exact absurd hfailed hno

/-- A library that makes one system call to open a handle and one for a request. -/
def plainNetlink : Libnetlink where
  rtnlOpen := acquire .rtnlOpen
  rtnlTalk := call
  rtnlClose := release

theorem plainNetlink_lawful : plainNetlink.Lawful where
  rtnlOpen := by
    refine (triple_acquire_only _).mono ?_
    rintro fd k calls (⟨hfd, hk, rfl⟩ | ⟨n, hfd, hk, rfl⟩)
    · exact ⟨Or.inl ⟨hfd, hk⟩, by simp⟩
    · exact ⟨Or.inr ⟨n, hfd, hk⟩, by simp⟩
  rtnlTalk own request := triple_call request
  rtnlClose own fd h := triple_release h

/-- The call that writes the flags fails. -/
def flaglessProcess : Process Syscall := ⟨{0, 1, 2}, fun n => decide (n ≠ 4), []⟩

/-- The control socket is left open. -/
theorem setupTun_exact_flagless :
    let r := setupTun plainNetlink 0 0 flaglessProcess
    ∃ (ctl : Nat) (calls : List (Syscall × Outcome)), r.1 = none ∧ r.2.log = calls ∧
      r.2.used = {ctl} ∪ {0, 1, 2} ∧ (.openTun, .opened ctl) ∉ calls ∧
      ∃ family, (.socket family 0, .opened ctl) ∈ calls := by
  intro r
  obtain ⟨kept, calls, -, hused, hlog, -, -, hfail⟩ :=
    setupTun_exact plainNetlink_lawful 0 0 flaglessProcess
  have hnone : r.1 = none := by decide +kernel
  have hcall : (.setIfFlags (changedFlags 0 iffUp iffUp), .failed) ∈ r.2.log := by decide +kernel
  rw [hlog] at hcall
  obtain ⟨htun, hflags, -⟩ := hfail hnone
  obtain ⟨family, ctl, rfl, hctl⟩ := hflags ⟨_, rfl, hcall⟩
  exact ⟨ctl, calls, hnone, hlog, hused,
    fun hmem => htun ctl hmem (Finset.mem_singleton_self ctl), family, hctl⟩

/-! ## The two programs -/

theorem DeviceReady.mono {stack devFlags : BitVec 16} {calls calls' : List (Syscall × Outcome)}
    (h : DeviceReady stack devFlags calls) (hsub : calls ⊆ calls') :
    DeviceReady stack devFlags calls' :=
  ⟨hsub h.device, h.up.mono hsub, hsub h.address, hsub h.route⟩

/-- A client without its TUN device ends with the first `read`. -/
theorem clientIteration_of_noTun {fds : ClientFds} (h : fds.tunfd = none) (c : VpnClient)
    {input : TunnelInput} (hinput : fds.Permits input) : clientIteration (some c) input = none := by
  rw [clientIteration, (hinput.1 h).1]
  rfl

/-- A client without a socket ends when it sends or receives. -/
theorem clientIteration_of_noUdp {fds : ClientFds} (h : fds.udpfd = none) (c : VpnClient)
    {input : TunnelInput} (hinput : fds.Permits input) : clientIteration (some c) input = none := by
  obtain ⟨hrecv, hsend⟩ := hinput.2 h
  rw [clientIteration, hrecv, hsend]
  cases input.read with
  | error => rfl
  | again => rfl
  | packet payload => rfl

/-- What `init_vpn_client` has done if it returns two descriptors. -/
theorem initClientFds_spec {lib : Libnetlink} (hlib : lib.Lawful) (stack devFlags : BitVec 16) :
    Triple ∅ (initClientFds lib stack devFlags) fun fds k calls =>
      fds.udpfd = none ∨ fds.tunfd = none ∨ ∃ udpfd tunfd, fds = ⟨some udpfd, some tunfd⟩ ∧
        udpfd ≠ tunfd ∧ k = {udpfd, tunfd} ∧ DeviceReady stack devFlags calls := by
  refine (triple_acquire_only _).bind ?_
  rintro _ _ c₁ (⟨rfl, rfl, -⟩ | ⟨udpfd, rfl, rfl, -⟩)
  · refine (setupTun_spec hlib stack devFlags).bind ?_
    intro tunfd k c₂ _
    exact triple_pure (Or.inl rfl)
  · refine ((setupTun_spec hlib stack devFlags).beside udpfd).bind ?_
    rintro tunfd _ c₂ ⟨k, rfl, hudp, hend⟩
    cases hend with
    | done tunfd htun hall hflags =>
        refine triple_pure (Or.inr (Or.inr ⟨udpfd, tunfd, rfl, ?_, rfl, ?_⟩))
        · exact fun heq => hudp (Finset.mem_singleton.2 heq)
        · rw [List.append_nil]
          exact hall.mono (List.subset_append_right c₁ c₂)
    | failed hpending => exact triple_pure (Or.inr (Or.inl rfl))
    | leaked ctl family hctl htun hroute hfailed => exact triple_pure (Or.inr (Or.inl rfl))

/-- A client that goes on after its first iteration has been set up in full: it has a socket and
the descriptor of a device that is up, with address and route, and no other descriptor has been left
open on the way. -/
theorem client_start {lib : Libnetlink} (hlib : lib.Lawful) (stack devFlags : BitVec 16)
    (p : Process Syscall) (c : VpnClient) (input : TunnelInput) :
    let r := initClientFds lib stack devFlags p
    r.1.Permits input → (clientIteration (some (initVpnClient c)) input).isSome →
      ∃ udpfd tunfd calls, r.1 = ⟨some udpfd, some tunfd⟩ ∧ udpfd ≠ tunfd ∧
        Disjoint {udpfd, tunfd} p.used ∧ r.2.used = {udpfd, tunfd} ∪ p.used ∧
        r.2.log = p.log ++ calls ∧ DeviceReady stack devFlags calls := by
  intro r hpermits hgoes
  obtain ⟨kept, calls, hdisj, hused, hlog, hudp | htun | hboth⟩ :=
    (initClientFds_spec hlib stack devFlags).run p
  · rw [clientIteration_of_noUdp hudp _ hpermits] at hgoes
    cases hgoes
  · rw [clientIteration_of_noTun htun _ hpermits] at hgoes
    cases hgoes
  · obtain ⟨udpfd, tunfd, hfds, hne, rfl, hall⟩ := hboth
    exact ⟨udpfd, tunfd, calls, hfds, hne, hdisj, hused, hlog, hall⟩

/-- Every call succeeds, and the device is not up yet. -/
def kindProcess : Process Syscall := ⟨{0, 1, 2}, fun _ => true, []⟩

/-- The client of a system without failures finds no packets at first. -/
theorem client_start_kind :
    let r := initClientFds plainNetlink 0 0 kindProcess
    ∃ udpfd tunfd calls, r.1 = ⟨some udpfd, some tunfd⟩ ∧ udpfd ≠ tunfd ∧
      Disjoint {udpfd, tunfd} kindProcess.used ∧ r.2.used = {udpfd, tunfd} ∪ kindProcess.used ∧
      r.2.log = kindProcess.log ++ calls ∧ DeviceReady 0 0 calls := by
  refine client_start plainNetlink_lawful 0 0 kindProcess ⟨fun _ => 0, 0, ⟨0, 0⟩⟩
    ⟨.again, true, .again, true⟩ ?_ rfl
  have htun : (initClientFds plainNetlink 0 0 kindProcess).1.tunfd.isSome = true := by
    decide +kernel
  have hudp : (initClientFds plainNetlink 0 0 kindProcess).1.udpfd.isSome = true := by
    decide +kernel
  constructor
  · intro hnone
    rw [hnone] at htun
    cases htun
  · intro hnone
    rw [hnone] at hudp
    cases hudp

/-- No call has failed. -/
def Smooth (calls : List (Syscall × Outcome)) : Prop := ∀ c ∈ calls, c.2 ≠ .failed

theorem smooth_append {calls calls' : List (Syscall × Outcome)} :
    Smooth (calls ++ calls') ↔ Smooth calls ∧ Smooth calls' := List.forall_mem_append

theorem smooth_singleton {r : Syscall} {o : Outcome} : Smooth [(r, o)] ↔ o ≠ .failed :=
  List.forall_mem_singleton

theorem smooth_call {r : Syscall} {ok : Bool} : Smooth [(r, outcome ok)] ↔ ok = true := by
  rw [smooth_singleton]
  cases ok with
  | true => simp [outcome]
  | false => simp [outcome]

/-- The protocol of the raw socket is `htons(ETH_P_IP)`. -/
def rawSocket : Syscall := .socket .packet 0x0008

/-- The server's UDP socket stays open if it cannot be bound. -/
theorem getUdpSocketServer_spec (port : UInt16) :
    Triple ∅ (getUdpSocketServer port) fun fd k calls => (fd.isSome ↔ Smooth calls) ∧
      (∀ n, (rawSocket, .opened n) ∉ calls) ∧
      (k = ∅ ∧ fd = none ∧ (∀ n, (.socket .inet 0, .opened n) ∉ calls) ∨
        ∃ n, k = {n} ∧ (.socket .inet 0, .opened n) ∈ calls ∧ (fd = none ∨ fd = some n)) := by
  refine (triple_acquire_only _).bind ?_
  rintro _ _ _ (⟨rfl, rfl, rfl⟩ | ⟨n, rfl, rfl, rfl⟩)
  · apply triple_pure
    rw [List.append_nil, smooth_singleton]
    exact ⟨by simp, by simp, Or.inl ⟨rfl, rfl, by simp⟩⟩
  refine (triple_call _).bind ?_
  rintro ok _ _ ⟨rfl, rfl⟩
  have hraw : ∀ m, (rawSocket, Outcome.opened m) ∉
      [(Syscall.socket .inet 0, .opened n)] ++ ([(.bindUdp port, outcome ok)] ++ []) := by
    simp [rawSocket]
  split
  case isTrue hok =>
    refine triple_pure ⟨?_, hraw, Or.inr ⟨n, rfl, List.mem_cons_self, Or.inr rfl⟩⟩
    rw [List.append_nil, smooth_append, smooth_singleton, smooth_call]
    exact iff_of_true rfl ⟨Outcome.noConfusion, hok⟩
  case isFalse hfailed =>
    refine triple_pure ⟨?_, hraw, Or.inr ⟨n, rfl, List.mem_cons_self, Or.inl rfl⟩⟩
    rw [List.append_nil, smooth_append, smooth_singleton, smooth_call]
    exact iff_of_false Bool.false_ne_true fun h => hfailed h.2

/-- The raw socket does not. -/
theorem getVpnRawSocket_spec (own : Finset Nat) :
    Triple own getVpnRawSocket fun fd k calls => (fd.isSome ↔ Smooth calls) ∧
      (∀ n, (rawSocket, .opened n) ∈ calls → n ∉ own) ∧
      (fd = none ∧ k = own ∨
        ∃ n, fd = some n ∧ k = insert n own ∧ (rawSocket, .opened n) ∈ calls) := by
  refine (triple_acquire _).bind ?_
  rintro _ _ _ (⟨rfl, rfl, rfl⟩ | ⟨n, rfl, hn, rfl, rfl⟩)
  · apply triple_pure
    rw [List.append_nil, smooth_singleton]
    exact ⟨by simp, by simp, Or.inl ⟨rfl, rfl⟩⟩
  refine (triple_call _).bind ?_
  rintro ok _ _ ⟨rfl, rfl⟩
  split
  case isTrue hok =>
    apply triple_pure
    rw [List.append_nil, smooth_append, smooth_singleton, smooth_call]
    refine ⟨iff_of_true rfl ⟨Outcome.noConfusion, hok⟩, ?_,
      Or.inr ⟨n, rfl, rfl, List.mem_cons_self⟩⟩
    simp [rawSocket, hn]
  case isFalse hfailed =>
    refine (triple_release_insert hn none).mono ?_
    rintro _ _ _ ⟨rfl, rfl, rfl⟩
    rw [List.append_nil, smooth_append, smooth_singleton, smooth_call]
    refine ⟨iff_of_false Bool.false_ne_true fun h => hfailed h.2, ?_, Or.inl ⟨rfl, rfl⟩⟩
    simp [rawSocket, hn]

/-- What is left open when `init_vpn_server` exits. -/
def LeftOpen (calls : List (Syscall × Outcome)) (kept : Finset Nat) : Prop :=
  (∀ rawfd, (rawSocket, .opened rawfd) ∈ calls → rawfd ∉ kept) ∧
    ((∀ fd, (.socket .inet 0, .opened fd) ∉ calls) ∧ kept = ∅ ∨
      ∃ udpfd, (.socket .inet 0, .opened udpfd) ∈ calls ∧ kept = {udpfd})

theorem initServerFds_spec :
    Triple ∅ initServerFds fun fds k calls => (fds.isSome ↔ Smooth calls) ∧
      (∀ fds', fds = some fds' → (.socket .inet 0, .opened fds'.udpfd) ∈ calls ∧
        (rawSocket, .opened fds'.rawfd) ∈ calls ∧ fds'.udpfd ≠ fds'.rawfd ∧
        k = {fds'.udpfd, fds'.rawfd}) ∧
      (fds = none → LeftOpen calls k) := by
  refine (getUdpSocketServer_spec localPort).bind ?_
  rintro udp k c₁ ⟨hudp, hraw₁, ⟨rfl, rfl, hnone⟩ | ⟨udpfd, rfl, hsome, rfl | rfl⟩⟩
  · apply triple_pure
    rw [List.append_nil]
    exact ⟨hudp, by rintro fds ⟨⟩, fun _ =>
      ⟨fun rawfd hmem => absurd hmem (hraw₁ rawfd), Or.inl ⟨hnone, rfl⟩⟩⟩
  · -- `bind` has failed
    apply triple_pure
    rw [List.append_nil]
    exact ⟨hudp, by rintro fds ⟨⟩, fun _ =>
      ⟨fun rawfd hmem => absurd hmem (hraw₁ rawfd), Or.inr ⟨udpfd, hsome, rfl⟩⟩⟩
  refine (getVpnRawSocket_spec {udpfd}).bind ?_
  rintro raw _ c₂ ⟨hraw, hnew, ⟨rfl, rfl⟩ | ⟨rawfd, rfl, rfl, hopened⟩⟩
  · apply triple_pure
    rw [List.append_nil, smooth_append]
    refine ⟨iff_of_false Bool.false_ne_true fun h => Bool.false_ne_true (hraw.2 h.2),
      by rintro fds ⟨⟩, fun _ => ⟨fun rawfd hmem => ?_,
        Or.inr ⟨udpfd, List.mem_append_left _ hsome, rfl⟩⟩⟩
    exact (List.mem_append.1 hmem).elim (fun hfirst => absurd hfirst (hraw₁ rawfd)) (hnew rawfd)
  · apply triple_pure
    rw [List.append_nil, smooth_append]
    refine ⟨iff_of_true rfl ⟨hudp.1 rfl, hraw.1 rfl⟩, fun fds hfds => ?_, by rintro ⟨⟩⟩
    obtain rfl := Option.some.inj hfds
    refine ⟨List.mem_append_left _ hsome, List.mem_append_right _ hopened, ?_,
      Finset.pair_comm rawfd udpfd⟩
    exact fun heq => hnew rawfd hopened (Finset.mem_singleton.2 heq.symm)

/-- The server starts exactly if no call fails, and then it has its two sockets and nothing else. If
it exits, its UDP socket is still open, unless there was none; the raw socket is not. -/
theorem server_start (p : Process Syscall) :
    let r := initServerFds p
    ∃ kept calls, Disjoint kept p.used ∧ r.2.used = kept ∪ p.used ∧ r.2.log = p.log ++ calls ∧
      (r.1.isSome ↔ Smooth calls) ∧
      (∀ fds, r.1 = some fds → (.socket .inet 0, .opened fds.udpfd) ∈ calls ∧
        (rawSocket, .opened fds.rawfd) ∈ calls ∧ fds.udpfd ≠ fds.rawfd ∧
        kept = {fds.udpfd, fds.rawfd}) ∧
      (r.1 = none → LeftOpen calls kept) :=
  initServerFds_spec.run p

end BenkerVpn
