import Mathlib.Data.Nat.Basic
import Climon.Server.Promotion

namespace Climon.Server.PromotionRuns

open Climon.Lib.Transition Climon.Server.Promotion

/-! # Which runs of two servers end with one host -/

variable {τ : Type}

/-- The server listens and was not told to stop. -/
def live : Phase τ → Bool
  | .announced _ | .settling _ _ | .decided _ | .settled => true
  | _ => false

/-- Live, or on the way to it. -/
def running : Phase τ → Bool
  | .off | .closing => false
  | _ => true

def contests : Phase τ → Bool
  | .settling _ _ | .decided _ => true
  | _ => false

theorem running_of_live {p : Phase τ} (h : live p = true) : running p = true := by
  cases p <;> first | rfl | cases h

/-- The host is a live server. -/
def isHost (s : Side → Os τ) (x : Side) : Bool := live (s x).server

/-- One server is the host, and the other one is not. -/
def Converged (s : Side → Os τ) : Prop := ∃ x, isHost s x = true ∧ isHost s x.peer = false

/-- Nobody is left who would act on a request in this home. -/
def unwatched (c : ClimonConfig) (o : Os τ) : Bool :=
  decide (o.daemon = .down) && !(live o.server && c.watches)

/-- No server starts or stops, no daemon stands down, no request waits to be read. -/
def Quiet (cfg : Side → ClimonConfig) (s : Side → Os τ) : Prop :=
  ∀ x, ((s x).server = .off ∨ (s x).server = .settled) ∧
    ((s x).daemon = .down ∨ ∃ announced, (s x).daemon = .up announced false) ∧
      ((s x).home.request = none ∨ unwatched (cfg x) (s x) = true)

/-- Any files and any daemons of earlier runs; no server. -/
structure Initial (cfg : Side → ClimonConfig) (s : Side → Os τ) : Prop where
  server : ∀ x, (s x).server = .off
  daemon : ∀ x, computeRemotesActive (cfg x) = false → (s x).daemon = .down

variable [LinearOrder τ]

/-! ## The condition -/

/-- The settle window of a server in this phase ends with a request for a peer with this home. -/
def winning (isWsl : Bool) (peer : Home τ) : Phase τ → Prop
  | .announced t | .settling t _ =>
    ∃ b, peer.server = some b ∧ dualPromoteSettleDecision isWsl t b.startedAt = .win
  | .decided d => d = .win
  | .settled => peer.request = some .wellFormed
  | _ => False

/-- Only a server that watches its own home stops for a request. -/
structure Ousts (cfg : Side → ClimonConfig) (s : Side → Os τ) (x : Side) : Prop where
  promotes : (cfg x).promotes = true
  watches : (cfg x.peer).watches = true
  winning : winning x.isWsl (s x.peer).home (s x).server

/-- A server announces itself only beside no live one, or one of the two will oust the other; it
stops or gives up its start only beside another one that goes on. -/
def Settles (cfg : Side → ClimonConfig) (s : Side → Os τ) : Side × Action τ → Prop
  | (x, a) =>
    match (s x).server, a with
    | .bound t, .announce =>
      isHost s x.peer = true →
        let announced := place x { s x with
          home := { (s x).home with server := some ⟨some t⟩ }
          server := .announced t } (s x.peer)
        Ousts cfg announced x ∨ Ousts cfg announced x.peer
    | .announced _, .serve =>
      isHost s x.peer = true → (cfg x).watches = true → (s x).home.request = none
    | .settling _ _, .giveUp => isHost s x.peer = false
    | .settled, .watch =>
      (s x).home.request = some .wellFormed → running (s x.peer).server = true
    | .confirming, .confirm false | _, .unreachable true => isHost s x.peer = true
    | _, _ => True

/-- What holds of a run whose steps meet the condition. -/
structure Sound (cfg : Side → ClimonConfig) (s : Side → Os τ) : Prop where
  contests : ∀ x, contests (s x).server = true → (cfg x).promotes = true
  daemon : ∀ x, computeRemotesActive (cfg x) = false → (s x).daemon = .down
  contested : (∀ x, isHost s x = true) → ∃ x, Ousts cfg s x

/-! ## One step of a daemon -/

section

variable {cfg : Side → ClimonConfig} {s t : Side → Os τ} {x : Side} {a : Action τ}
  {c : ClimonConfig} {own peer own' peer' : Os τ} {d : Daemon}

omit [LinearOrder τ]

theorem daemonNext_server (h : daemonNext c own d a = some own') : own'.server = own.server := by
  unfold daemonNext at h
  split at h
  · split at h
    · cases h
      rfl
    · cases h
  · cases h
    rfl
  · obtain ⟨valid, -, rfl⟩ := Option.map_eq_some_iff.mp h
    rfl
  · cases h
    rfl
  · cases h
    rfl
  · cases h
    rfl
  · cases h
    rfl
  · cases h
    rfl
  · cases h
    rfl
  · cases h

/-- A home with the remotes off has no daemon. -/
theorem daemonNext_inactive (hdown : own.daemon = .down) (hremotes : computeRemotesActive c = false) :
    daemonNext c own own.daemon a = none := by
  rw [hdown]
  cases a <;> simp [daemonNext, hremotes]

theorem plainShutdown_daemon (o : Os τ) : (plainShutdown o).daemon = o.daemon := by
  unfold plainShutdown
  split <;> rfl

theorem plainShutdown_contests (h : contests (plainShutdown own).server = true) :
    contests own.server = true := by
  unfold plainShutdown at h
  split at h
  · cases h
  · cases h
  · cases h
  · exact h

end

/-! ## One step of a server -/

section

variable {cfg : Side → ClimonConfig} {s t : Side → Os τ} {x : Side} {a : Action τ}
  {c : ClimonConfig} {own peer own' peer' : Os τ}

/-- What a server can do, branch by branch. -/
inductive ServerStep (x : Side) (c : ClimonConfig) (own peer : Os τ) :
    Phase τ → Action τ → Os τ → Os τ → Prop
  | start : ServerStep x c own peer .off .start
      { own with server := if c.promotes then .promoting else .starting } peer
  | readPeer : ServerStep x c own peer .promoting .readPeer
      { own with server := .looked peer.home.server.isSome peer.home.ingest } peer
  | alone : ServerStep x c own peer (.looked false false) .proceed { own with server := .starting }
      peer
  | stale (b : Bool) : ServerStep x c own peer (.looked b true) (.probeIngest false)
      { own with server := .clearing beaconFiles } peer
  | ask (b : Bool) : ServerStep x c own peer (.looked b true) (.probeIngest true)
      { own with server := .confirming } { peer with home := peer.home.write .wellFormed }
  | confirmed : ServerStep x c own peer .confirming (.confirm true) { own with server := .starting }
      peer
  | declined : ServerStep x c own peer .confirming (.confirm false) { own with server := .off } peer
  | post : ServerStep x c own peer (.looked true false) (.post true) { own with server := .posted }
      (plainShutdown peer)
  | postUnheard : ServerStep x c own peer (.looked true false) (.post false)
      { own with server := .posted } peer
  | stopped : ServerStep x c own peer .posted .stopped
      { own with server := .clearing beaconFiles } peer
  | withdraw {p : Phase τ} (hp : p = .looked true false ∨ p = .posted) :
      ServerStep x c own peer p (.unreachable true) { own with server := .off } peer
  | carryOn {p : Phase τ} (hp : p = .looked true false ∨ p = .posted) :
      ServerStep x c own peer p (.unreachable false) { own with server := .starting } peer
  | clear (f : HomeFile) (left : List HomeFile) :
      ServerStep x c own peer (.clearing (f :: left)) (.clear true)
        { own with server := .clearing left } { peer with home := peer.home.remove f }
  | clearFailed (f : HomeFile) (left : List HomeFile) :
      ServerStep x c own peer (.clearing (f :: left)) (.clear false)
        { own with server := .clearing left } peer
  | cleared : ServerStep x c own peer (.clearing []) .proceed { own with server := .starting } peer
  | bind (now : τ) : ServerStep x c own peer .starting (.bind now) { own with server := .bound now }
      peer
  | announce (t : τ) : ServerStep x c own peer (.bound t) .announce
      { own with home := { own.home with server := some ⟨some t⟩ }, server := .announced t } peer
  | serve (t : τ) : ServerStep x c own peer (.announced t) .serve
      { own with
        home := if c.watches then own.home.remove .shutdownRequest else own.home
        server := if c.promotes then .settling t false else .settled } peer
  | poll (t : τ) (polled : Bool) : ServerStep x c own peer (.settling t polled) .poll
      { own with server := settleDualPromote x t peer.home.server } peer
  | win : ServerStep x c own peer (.decided .win) .request { own with server := .settled }
      { peer with home := peer.home.write .wellFormed }
  | lose : ServerStep x c own peer (.decided .lose) .request
      { own with home := own.home.write .wellFormed, server := .settled } peer
  | giveUp (t : τ) : ServerStep x c own peer (.settling t true) .giveUp
      { own with server := .settled } peer
  | watch (valid : Bool) (hwatches : c.watches = true)
      (hvalid : check own.home.request = some valid) :
      ServerStep x c own peer .settled .watch
        (if valid then plainShutdown { own with home := own.home.remove .shutdownRequest }
          else { own with home := own.home.remove .shutdownRequest }) peer
  | exit : ServerStep x c own peer .closing .exit { own with server := .off } peer

theorem serverNext_step {p : Phase τ} (h : serverNext x c own peer p a = some (own', peer')) :
    ServerStep x c own peer p a own' peer' := by
  unfold serverNext at h
  split at h
  case h_25 =>
    split at h
    · rename_i hwatches
      obtain ⟨valid, hvalid, hown⟩ := Option.map_eq_some_iff.mp h
      cases hown
      exact .watch valid hwatches hvalid
    · cases h
  all_goals first
    | (cases h; exact .withdraw (.inl rfl))
    | (cases h; exact .withdraw (.inr rfl))
    | (cases h; exact .carryOn (.inl rfl))
    | (cases h; exact .carryOn (.inr rfl))
    | (cases h; constructor)
    | cases h

/-- A server becomes live by announcing itself. -/
theorem serverNext_live {p : Phase τ} (h : serverNext x c own peer p a = some (own', peer'))
    (hlive : live own'.server = true) : live p = true ∨ ∃ now, p = .bound now ∧ a = .announce := by
  cases serverNext_step h with
  | announce now => exact .inr ⟨now, rfl, rfl⟩
  | start => split at hlive <;> cases hlive
  | serve | poll | win | lose | giveUp | watch => exact .inl rfl
  | _ => cases hlive

theorem check_eq_some {r : Option ShutdownRequest} {valid : Bool} (h : check r = some valid) :
    r = some (if valid then .wellFormed else .malformed) := by
  cases r with
  | none => cases h
  | some r => cases r <;> cases h <;> rfl

theorem serverNext_watch (h : serverNext x c own peer .settled .watch = some (own', peer')) :
    c.watches = true ∧ peer' = peer ∧ ∃ valid, check own.home.request = some valid ∧
      own' = (let o := { own with home := own.home.remove .shutdownRequest }
        if valid then plainShutdown o else o) := by
  cases serverNext_step h with
  | watch valid hwatches hvalid => exact ⟨hwatches, rfl, valid, hvalid, rfl⟩

/-- While a side goes on, it stays so, unless the other one shuts it down and goes on itself. -/
theorem serverNext_peer {p : Phase τ} (h : serverNext x c own peer p a = some (own', peer')) :
    peer'.server = peer.server ∨ own'.server = .posted := by
  cases serverNext_step h with
  | post => exact .inr rfl
  | _ => exact .inl rfl

theorem serverNext_daemon {p : Phase τ} (h : serverNext x c own peer p a = some (own', peer')) :
    own'.daemon = own.daemon ∧ peer'.daemon = peer.daemon := by
  cases serverNext_step h with
  | post => exact ⟨rfl, plainShutdown_daemon peer⟩
  | watch valid =>
    cases valid with
    | false => exact ⟨rfl, rfl⟩
    | true => exact ⟨plainShutdown_daemon _, rfl⟩
  | _ => exact ⟨rfl, rfl⟩

/-- Only a server that promotes opens a settle window. -/
theorem serverNext_contests {p : Phase τ} (hp : own.server = p)
    (h : serverNext x c own peer p a = some (own', peer'))
    (hcontests : contests own'.server = true) : c.promotes = true ∨ contests p = true := by
  cases serverNext_step h with
  | watch valid =>
    rw [← hp]
    cases valid with
    | false => exact .inr hcontests
    | true =>
      simp only [if_true] at hcontests
      have hown := plainShutdown_contests hcontests
      exact .inr hown
  | start | serve =>
    cases hpromotes : c.promotes <;> simp [contests, hpromotes] at hcontests ⊢
  | poll => exact .inr rfl
  | _ => cases hcontests

theorem serverNext_peer_contests {p : Phase τ}
    (h : serverNext x c own peer p a = some (own', peer')) (hcontests : contests peer'.server = true) :
    contests peer.server = true := by
  cases serverNext_step h with
  | post => exact plainShutdown_contests hcontests
  | _ => exact hcontests

/-- A live server that does not watch its home never stops by itself. -/
theorem serverNext_stays {p : Phase τ} (hp : live p = true) (hwatches : c.watches = false)
    (h : serverNext x c own peer p a = some (own', peer')) :
    live own'.server = true ∧ peer'.server = peer.server := by
  cases serverNext_step h with
  | serve => cases c.promotes <;> simp [live]
  | poll => cases peer.home.server <;> simp [live, settleDualPromote]
  | win | lose | giveUp => exact ⟨rfl, rfl⟩
  | watch valid hon =>
    rw [hwatches] at hon
    cases hon
  | withdraw hphase | carryOn hphase =>
    rcases hphase with rfl | rfl <;> cases hp
  | _ => cases hp

end

/-! ## The invariant along a run -/

section

variable {cfg : Side → ClimonConfig} {s t : Side → Os τ} {x : Side} {a : Action τ}

theorem isHost_before (h : Step cfg s (x, a) t) (hlive : ∀ y, isHost t y = true) :
    isHost s x.peer = true ∧ (isHost s x = true ∨ ∃ now, (s x).server = .bound now ∧ a = .announce) := by
  have hx := hlive x
  have hpeer := hlive x.peer
  simp only [isHost] at hx hpeer ⊢
  rcases h.sides with hserver | ⟨hdaemon, hsame⟩
  · refine ⟨?_, serverNext_live hserver hx⟩
    rcases serverNext_peer hserver with hsame | hposted
    · rwa [hsame] at hpeer
    · rw [hposted] at hx
      cases hx
  · rw [daemonNext_server hdaemon] at hx
    rw [hsame] at hpeer
    exact ⟨hpeer, .inl hx⟩

theorem isHost_both (hx : isHost s x = true) (hpeer : isHost s x.peer = true) (y : Side) :
    isHost s y = true := by
  rcases x.eq_or_eq_peer y with rfl | rfl
  · exact hx
  · exact hpeer

/-- A request that is dropped was not what the ouster counts on. -/
theorem winning_remove {w : Bool} {home : Home τ} {p : Phase τ} (h : winning w home p)
    (hrequest : home.request ≠ some .wellFormed) : winning w (home.remove .shutdownRequest) p := by
  cases p with
  | settled => exact absurd h hrequest
  | _ => exact h

/-- The ouster's own steps bring the request closer. -/
theorem ousts_own (hok : Settles cfg s (x, a))
    (h : serverNext x (cfg x) (s x) (s x.peer) (s x).server a = some (t x, t x.peer))
    (hx : Ousts cfg s x) (hpeer : isHost s x.peer = true) : Ousts cfg t x := by
  have hpromotes := hx.promotes
  have hwinning := hx.winning
  refine ⟨hpromotes, hx.watches, ?_⟩
  simp only [Settles] at hok
  cases hserver : (s x).server with
  | announced now =>
    rw [hserver] at h hwinning
    cases a with
    | serve =>
      simp only [serverNext, hpromotes, if_true, Option.some.injEq, Prod.mk.injEq] at h
      rw [← h.1, ← h.2]
      exact hwinning
    | _ => cases h
  | settling now polled =>
    rw [hserver] at h hwinning hok
    obtain ⟨b, hb, hwin⟩ := hwinning
    cases a with
    | poll =>
      simp only [serverNext, hb, settleDualPromote, hwin, Option.some.injEq, Prod.mk.injEq] at h
      rw [← h.1, ← h.2]
      rfl
    | giveUp =>
      rw [hok] at hpeer
      cases hpeer
    | _ => cases h
  | decided d =>
    rw [hserver] at h hwinning
    cases hwinning
    cases a with
    | request =>
      simp only [serverNext, Option.some.injEq, Prod.mk.injEq] at h
      rw [← h.1, ← h.2]
      rfl
    | _ => cases h
  | settled =>
    rw [hserver] at h
    cases a with
    | watch =>
      obtain ⟨hwatches, -⟩ := serverNext_watch h
      rw [ClimonConfig.promotes_watches hwatches] at hpromotes
      cases hpromotes
    | _ => cases h
  | _ =>
    rw [hserver] at hwinning
    exact hwinning.elim

/-- The server that is to be ousted does not lose the request. -/
theorem ousts_peer (hsound : Sound cfg s) (hok : Settles cfg s (x, a))
    (h : serverNext x (cfg x) (s x) (s x.peer) (s x).server a = some (t x, t x.peer))
    (hy : Ousts cfg s x.peer) (hx : isHost s x = true) (hpeer : isHost s x.peer = true)
    (hlive : isHost t x = true) : Ousts cfg t x.peer := by
  have hwatches := hy.watches
  have hwinning := hy.winning
  rw [Side.peer_peer] at hwatches hwinning
  have hcontests := hsound.contests x
  rw [ClimonConfig.promotes_watches hwatches] at hcontests
  refine ⟨hy.promotes, hy.watches, ?_⟩
  rw [Side.peer_peer]
  simp only [Settles] at hok
  cases hserver : (s x).server with
  | announced now =>
    rw [hserver] at h hok
    cases a with
    | serve =>
      simp only [serverNext, hwatches, if_true, Option.some.injEq, Prod.mk.injEq] at h
      rw [← h.1, ← h.2]
      have hnone := hok hpeer hwatches
      exact winning_remove hwinning (by rw [hnone]; simp)
    | _ => cases h
  | settling | decided =>
    rw [hserver] at hcontests
    cases hcontests rfl
  | settled =>
    rw [hserver] at h
    cases a with
    | watch =>
      obtain ⟨-, hsame, valid, hvalid, hown⟩ := serverNext_watch h
      rw [hsame]
      cases valid with
      | false =>
        have hrequest := check_eq_some hvalid
        rw [hown]
        exact winning_remove hwinning (by rw [hrequest]; simp)
      | true =>
        simp only [isHost, hown, if_true, plainShutdown, hserver] at hlive
        cases hlive
    | _ => cases h
  | _ =>
    rw [isHost, hserver] at hx
    cases hx

theorem contested_server (hsound : Sound cfg s) (hok : Settles cfg s (x, a))
    (h : serverNext x (cfg x) (s x) (s x.peer) (s x).server a = some (t x, t x.peer))
    (hpeer : isHost s x.peer = true) (hlive : isHost t x = true) : ∃ y, Ousts cfg t y := by
  rcases serverNext_live h hlive with hx | ⟨now, hserver, rfl⟩
  · obtain ⟨y, hy⟩ := hsound.contested (isHost_both hx hpeer)
    rcases x.eq_or_eq_peer y with rfl | rfl
    · exact ⟨y, ousts_own hok h hy hpeer⟩
    · exact ⟨x.peer, ousts_peer hsound hok h hy hx hpeer hlive⟩
  · simp only [Settles, hserver] at hok
    rw [hserver] at h
    simp only [serverNext, Option.some.injEq, Prod.mk.injEq] at h
    rw [h.1, h.2] at hok
    have hplace : place x (t x) (t x.peer) = t := by
      funext y
      rcases x.eq_or_eq_peer y with rfl | rfl <;> simp
    rw [hplace] at hok
    rcases hok hpeer with hx | hy
    · exact ⟨x, hx⟩
    · exact ⟨x.peer, hy⟩

theorem contested_daemon (hsound : Sound cfg s)
    (h : daemonNext (cfg x) (s x) (s x).daemon a = some (t x)) (hsame : t x.peer = s x.peer)
    (hlive : ∀ y, isHost s y = true) : ∃ y, Ousts cfg t y := by
  obtain ⟨y, hy⟩ := hsound.contested hlive
  rcases x.eq_or_eq_peer y with rfl | rfl
  · refine ⟨y, hy.promotes, hy.watches, ?_⟩
    rw [daemonNext_server h, hsame]
    exact hy.winning
  · have hwatches := hy.watches
    rw [Side.peer_peer] at hwatches
    have hremotes := ClimonConfig.remotesActive_watches hwatches
    rw [daemonNext_inactive (hsound.daemon x hremotes) hremotes] at h
    cases h

theorem Sound.step (hsound : Sound cfg s) (hok : Settles cfg s (x, a)) (h : Step cfg s (x, a) t) :
    Sound cfg t where
  contests := by
    intro y hy
    rcases h.sides with hserver | ⟨hdaemon, hsame⟩
    · rcases x.eq_or_eq_peer y with rfl | rfl
      · rcases serverNext_contests rfl hserver hy with hpromotes | hbefore
        · exact hpromotes
        · exact hsound.contests y hbefore
      · exact hsound.contests _ (serverNext_peer_contests hserver hy)
    · rcases x.eq_or_eq_peer y with rfl | rfl
      · rw [daemonNext_server hdaemon] at hy
        exact hsound.contests y hy
      · rw [hsame] at hy
        exact hsound.contests _ hy
  daemon := by
    intro y hy
    have hdown := hsound.daemon y hy
    rcases h.sides with hserver | ⟨hdaemon, hsame⟩
    · obtain ⟨hown, hpeer⟩ := serverNext_daemon hserver
      rcases x.eq_or_eq_peer y with rfl | rfl
      · rwa [hown]
      · rwa [hpeer]
    · rcases x.eq_or_eq_peer y with rfl | rfl
      · rw [daemonNext_inactive hdown hy] at hdaemon
        cases hdaemon
      · rwa [hsame]
  contested := by
    intro hlive
    obtain ⟨hpeer, hbefore⟩ := isHost_before h hlive
    rcases h.sides with hserver | ⟨hdaemon, hsame⟩
    · exact contested_server hsound hok hserver hpeer (hlive x)
    · refine contested_daemon hsound hdaemon hsame fun y => ?_
      have hy := hlive y
      rcases x.eq_or_eq_peer y with rfl | rfl
      · rwa [isHost, daemonNext_server hdaemon] at hy
      · exact hpeer

theorem Sound.initial (h : Initial cfg s) : Sound cfg s where
  contests := by
    intro y hy
    rw [h.server y] at hy
    cases hy
  daemon := h.daemon
  contested := by
    intro hlive
    have hx := hlive .wsl
    rw [isHost, h.server] at hx
    cases hx

/-- Some server goes on. -/
def Going (s : Side → Os τ) : Prop := ∃ x, running (s x).server = true

end

/-! ## One host -/

section

variable {cfg : Side → ClimonConfig} {s t : Side → Os τ} {es : List (Side × Action τ)}

/-- Two hosts are not for long: the one to be ousted has something left to do. -/
theorem Quiet.converged (hquiet : Quiet cfg t) (hsound : Sound cfg t) (hgoing : Going t) :
    Converged t := by
  obtain ⟨x, hx⟩ := hgoing
  have hhost : ∀ y, running (t y).server = true → (t y).server = .settled := by
    intro y hy
    rcases (hquiet y).1 with hoff | hsettled
    · rw [hoff] at hy
      cases hy
    · exact hsettled
  have hsettled := hhost x hx
  refine ⟨x, by rw [isHost, hsettled]; rfl, ?_⟩
  by_contra hboth
  rw [Bool.not_eq_false] at hboth
  have hpeer := hhost x.peer (running_of_live hboth)
  have hall : ∀ y, (t y).server = .settled := by
    intro y
    rcases x.eq_or_eq_peer y with rfl | rfl
    · exact hsettled
    · exact hpeer
  obtain ⟨y, hy⟩ := hsound.contested fun y => by rw [isHost, hall y]; rfl
  have hwinning := hy.winning
  rw [hall y] at hwinning
  rcases (hquiet y.peer).2.2 with hnone | hunwatched
  · rw [winning, hnone] at hwinning
    cases hwinning
  · simp [unwatched, hall, live, hy.watches] at hunwatched

/-- Two hosts for good: with the bridge on at both sides nobody carries out a request. -/
theorem both_hosts_stay (hwatches : ∀ x, (cfg x).watches = false) (run : Run (Step cfg) s es t)
    (h : ∀ x, isHost s x = true) : ∀ x, isHost t x = true := by
  refine run.invariant (I := fun s => ∀ x, isHost s x = true) (fun {s e t} hs hstep => ?_) h
  obtain ⟨x, a⟩ := e
  rcases Step.sides hstep with hserver | ⟨hdaemon, hsame⟩
  · obtain ⟨hown, hpeer⟩ := serverNext_stays (hs x) (hwatches x) hserver
    refine isHost_both hown ?_
    rw [isHost, hpeer]
    exact hs x.peer
  · refine isHost_both (x := x) ?_ ?_
    · rw [isHost, daemonNext_server hdaemon]
      exact hs x
    · rw [isHost, hsame]
      exact hs x.peer

end

def emptyHome : Home Nat := { server := none, ingest := false, request := none }

def absent : Side → Os Nat := fun _ => { home := emptyHome, server := .off, daemon := .down }

end Climon.Server.PromotionRuns
