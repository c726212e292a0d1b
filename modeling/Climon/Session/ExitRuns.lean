import Climon.Session.AttachRuns
import Climon.Session.AttentionView

namespace Climon.Session.ExitRuns

open Climon.Lib.Transition Climon.Proto.Frame Climon.Session.Host Climon.Session.Replay
  Climon.Session.Surfaces Climon.Session.AttachStream Climon.Session.AttachRuns

/-!
# The end of a session

The host with what outlives it: the scrollback file that the teardown writes, and the frames that
each client's writer thread has put on its socket.
-/

variable {G : Type}

structure FinishingHost (G : Type) where
  host : HostState G
  file : Option (List UInt8)
  written : ClientId → Nat
  eof : Bool

/-- `locked` tells whether the teardown's scrollback file could be written. -/
inductive FinishEvent where
  | locked (e : Event) (persisted : Bool)
  | writes (n : ClientId)
  | eof
  deriving DecidableEq, Repr

def FinishingHost.after (s : FinishingHost G) (e : Event) (persisted : Bool) (t : HostState G) :
    FinishingHost G :=
  match e with
  | .exit _ =>
    { s with host := t, file := if persisted then some s.host.scrollback.snapshot else s.file }
  | _ => { s with host := t }

/-- The PTY reader stops at the end of the file, and a writer lives on what was queued for it. -/
def finishEnabled (s : FinishingHost G) : FinishEvent → Bool
  | .locked (.output _) _ => !s.eof
  | .locked _ _ => true
  | .writes n => !(s.host.channels n).dead && s.written n < (s.host.channels n).frames.length
  | .eof => !s.eof

inductive FinishStep (env : HostEnv G) :
    FinishingHost G → FinishEvent → FinishingHost G → Prop where
  | locked {s : FinishingHost G} {e : Event} {t : HostState G} (persisted : Bool) :
      finishEnabled s (.locked e persisted) → Step env s.host e t →
      FinishStep env s (.locked e persisted) (s.after e persisted t)
  | writes {s : FinishingHost G} {n : ClientId} :
      finishEnabled s (.writes n) →
      FinishStep env s (.writes n)
        { s with written := Function.update s.written n (s.written n + 1) }
  | eof {s : FinishingHost G} : finishEnabled s .eof → FinishStep env s .eof { s with eof := true }

/-- The schedule of a deterministic run. -/
def finishNext (env : HostEnv G) (s : FinishingHost G) (e : FinishEvent) :
    Option (FinishingHost G) :=
  if finishEnabled s e then
    match e with
    | .locked e persisted => (next env s.host e).map (s.after e persisted)
    | .writes n => some { s with written := Function.update s.written n (s.written n + 1) }
    | .eof => some { s with eof := true }
  else none

theorem finishStep_of_next {env : HostEnv G} {s t : FinishingHost G} {e : FinishEvent}
    (h : finishNext env s e = some t) : FinishStep env s e t := by
  unfold finishNext at h
  obtain ⟨henabled, h⟩ := Option.ite_none_right_eq_some.mp h
  cases e with
  | locked e persisted =>
    obtain ⟨t, ht, rfl⟩ := Option.map_eq_some_iff.mp h
    exact .locked persisted henabled (step_of_next ht)
  | writes n =>
    cases h
    exact .writes henabled
  | eof =>
    cases h
    exact .eof henabled

def finishInitial (env : HostEnv G) (launch : Launch) (cols rows : UInt16) (idleSeconds : Int)
    (snippetEnabled : Bool) : FinishingHost G where
  host := initialState env launch cols rows idleSeconds snippetEnabled
  file := none
  written := fun _ => 0
  eof := false

/-- What the client's socket has got. -/
def FinishingHost.sent (s : FinishingHost G) (n : ClientId) : List HostFrame :=
  (s.host.channels n).frames.take (s.written n)

/-- `run_session_host` has joined the reader and every writer that did not fail. -/
def Returned (s : FinishingHost G) : Prop :=
  s.host.exited = true ∧ s.eof = true ∧
    ∀ n, (s.host.channels n).dead = false → s.written n = (s.host.channels n).frames.length

def hostEvent : FinishEvent → Option Event
  | .locked e _ => some e
  | _ => none

/-- Everything the PTY reader read. -/
def stream (es : List FinishEvent) : List (List UInt8) := chunks (es.filterMap hostEvent)

/-- The PTY is read to its end before the teardown. -/
def Drained (s : FinishingHost G) : FinishEvent → Prop
  | .locked (.output _) _ => s.host.exited = false
  | _ => True

/-! ## Sections without output -/

/-- No section but the reader's adds output to a queue. -/
theorem silent_step {env : HostEnv G} {s t : HostState G} {e : Event} (hstep : Step env s e t)
    (hsilent : chunkOf e = none) (hs : Registered s) {n : ClientId} (hn : n < s.clientSeq) :
    n < t.clientSeq ∧
      ∃ ext, (t.channels n).frames = (s.channels n).frames ++ ext ∧ outputs ext = [] := by
  obtain ⟨m, hm, effect⟩ := step_effect hstep
  obtain ⟨ext, hext, hout⟩ := hm.frames n
  have hknown : n < m.clientSeq := hm.clientSeq ▸ hn
  cases effect with
  | quiet _ quiet =>
    have hboth := hm.toQuiet.trans quiet
    exact ⟨hboth.clientSeq ▸ hn, hboth.frames n⟩
  | connect =>
    refine ⟨Nat.lt_succ_of_lt hknown, ext, ?_, hout⟩
    rw [acceptClient_channels (Nat.ne_of_lt hknown), hext]
  | output data copy => cases hsilent
  | writerDies k =>
    refine ⟨hknown, ext, ?_, hout⟩
    rw [killWriter_frames, hext]
  | @initial _ u k _ before =>
    have hbefore := hm.toQuiet.trans before.toQuiet
    by_cases hwaiting : Waiting u k
    · have hjoin := writeInitialFrames_quiet (hs.quiet hbefore) hwaiting
      obtain ⟨first, hfirst, hfirstOut⟩ := hbefore.frames n
      obtain ⟨second, hsecond, hsecondOut⟩ := hjoin.frames n
      have hmark : ((markJoined u k).channels n).frames = (u.channels n).frames := rfl
      refine ⟨?_, first ++ second, ?_, ?_⟩
      · rw [hjoin.clientSeq]
        exact hbefore.clientSeq ▸ hn
      · rw [hsecond, hmark, hfirst, List.append_assoc]
      · unfold outputs at hfirstOut hsecondOut ⊢
        rw [List.filterMap_append, hfirstOut, hsecondOut, List.append_nil]
    · rw [writeInitialFrames_of_not_waiting hwaiting]
      exact ⟨hbefore.clientSeq ▸ hn, hbefore.frames n⟩

/-- The teardown sends every live client the exit code, as the last of its frames so far. -/
theorem teardown_frames (env : HostEnv G) {s : HostState G} {n : ClientId} (h : Live s n)
    (exitCode : Int32) :
    ((s.teardown env exitCode).channels n).frames = (s.channels n).frames ++ [.exit exitCode] := by
  have hsent (t : HostState G) (hclients : t.clients = s.clients)
      (hchannels : t.channels = s.channels) :
      ((t.broadcast (.exit exitCode)).channels n).frames =
        (s.channels n).frames ++ [.exit exitCode] := by
    rw [Handoff.broadcast_channels, hclients, hchannels, if_pos (joined_any.mpr h.1)]
    simp only [Channel.send, h.2, Bool.false_eq_true, if_false]
  unfold HostState.teardown
  dsimp only
  split
  · exact hsent _ rfl rfl
  · exact hsent _ rfl rfl

theorem exit_step_frames {env : HostEnv G} {s t : HostState G} {exitCode : Int32}
    (hstep : Step env s (.exit exitCode) t) {n : ClientId} (h : Live s n) :
    t.clientSeq = s.clientSeq ∧
      (t.channels n).frames = (s.channels n).frames ++ [.exit exitCode] := by
  obtain ⟨-, clients, hperm, rfl⟩ := hstep
  have hlive : Live { s with clients := clients } n :=
    ⟨((hperm.map _).mem_iff (a := (n, true))).mpr h.1, h.2⟩
  exact ⟨(teardown_quiet env _ exitCode).clientSeq, teardown_frames env hlive exitCode⟩

/-! ## Runs -/

theorem stream_concat (past : List FinishEvent) (e : FinishEvent) :
    stream (past ++ [e]) = chunks (past.filterMap hostEvent ++ (hostEvent e).toList) := by
  unfold stream
  rw [List.filterMap_append]
  cases he : hostEvent e with
  | none => rw [List.filterMap_cons_none he]; rfl
  | some event => rw [List.filterMap_cons_some he]; rfl

theorem after_host (s : FinishingHost G) (e : Event) (persisted : Bool) (t : HostState G) :
    (s.after e persisted t).host = t := by
  unfold FinishingHost.after
  split <;> rfl

theorem streams_step {env : HostEnv G} {past : List FinishEvent} {s t : FinishingHost G}
    {e : FinishEvent} (h : Streams (stream past) s.host) (hstep : FinishStep env s e t) :
    Streams (stream (past ++ [e])) t.host := by
  rw [stream_concat]
  cases hstep with
  | @locked e t persisted henabled hlocked =>
    rw [after_host]
    exact Streams.step h hlocked
  | writes =>
    rw [show (hostEvent (.writes _)).toList = [] from rfl, List.append_nil]
    exact h
  | eof =>
    rw [show (hostEvent .eof).toList = [] from rfl, List.append_nil]
    exact h

/-- What the teardown in `v` leaves to later steps: the file and the output stay what they were, and
queues only get frames without output. -/
structure Ended (before : List FinishEvent) (v : FinishingHost G) (past : List FinishEvent)
    (s : FinishingHost G) : Prop where
  exited : s.host.exited = true
  streams : Streams (stream past) s.host
  silent : stream past = stream before
  file : s.file = v.file
  frames : ∀ n < v.host.clientSeq, n < s.host.clientSeq ∧
    ∃ ext, (s.host.channels n).frames = (v.host.channels n).frames ++ ext ∧ outputs ext = []

theorem not_enabled_exit {s : HostState G} (h : s.exited = true) (exitCode : Int32) :
    enabled s (.exit exitCode) = false :=
  congrArg Bool.not h

theorem Ended.locked {env : HostEnv G} {before past : List FinishEvent} {v s : FinishingHost G}
    {e : Event} {persisted : Bool} {t : HostState G} (h : Ended before v past s)
    (hdrained : Drained s (.locked e persisted)) (hstep : Step env s.host e t) :
    Ended before v (past ++ [.locked e persisted]) (s.after e persisted t) := by
  have hsilent : chunkOf e = none := by
    cases e with
    | output data => exact absurd (h.exited.symm.trans hdrained) nofun
    | _ => rfl
  have hstream : stream (past ++ [.locked e persisted]) = stream past := by
    rw [stream_concat]
    exact chunks_concat_of_none _ hsilent
  refine ⟨?_, ?_, hstream.trans h.silent, ?_, fun n hn => ?_⟩
  · rw [after_host]
    obtain ⟨-, clients, -, rfl⟩ := hstep
    exact AttentionView.handle_exited env (s := { s.host with clients := clients }) h.exited e
  · rw [after_host, hstream]
    have hlater := h.streams.step hstep
    rwa [chunks_concat_of_none _ hsilent] at hlater
  · rw [← h.file]
    cases e with
    | exit exitCode =>
      obtain ⟨hrunning, -⟩ := hstep
      rw [not_enabled_exit h.exited] at hrunning
      cases hrunning
    | _ => rfl
  · rw [after_host]
    obtain ⟨hknown, ext, hext, hout⟩ := h.frames n hn
    obtain ⟨hlater, more, hmore, hmoreOut⟩ := silent_step hstep hsilent h.streams.toRegistered hknown
    refine ⟨hlater, ext ++ more, by rw [hmore, hext, List.append_assoc], ?_⟩
    unfold outputs at hout hmoreOut ⊢
    rw [List.filterMap_append, hout, hmoreOut, List.append_nil]

theorem Ended.step {env : HostEnv G} {before past : List FinishEvent} {v s t : FinishingHost G}
    {e : FinishEvent} (h : Ended before v past s)
    (hstep : Guarded Drained (FinishStep env) s e t) : Ended before v (past ++ [e]) t := by
  obtain ⟨hdrained, hstep⟩ := hstep
  cases hstep with
  | locked persisted _ hlocked => exact h.locked hdrained hlocked
  | @writes n _ =>
    have hstream : stream (past ++ [.writes n]) = stream past := by
      rw [stream_concat]
      exact congrArg chunks (List.append_nil _)
    exact ⟨h.exited, hstream ▸ h.streams, hstream.trans h.silent, h.file, h.frames⟩
  | eof =>
    have hstream : stream (past ++ [.eof]) = stream past := by
      rw [stream_concat]
      exact congrArg chunks (List.append_nil _)
    exact ⟨h.exited, hstream ▸ h.streams, hstream.trans h.silent, h.file, h.frames⟩

/-- When the PTY is read to its end before the teardown, the host returns with the end of the
whole output in the scrollback file, and every client that was live at the exit has got the
output from its replay on, and the exit code after it. -/
theorem output_kept_at_exit (env : HostEnv G) (launch : Launch) (cols rows : UInt16)
    (idleSeconds : Int) (snippetEnabled : Bool) (first later : List FinishEvent)
    (u v s : FinishingHost G) (exitCode : Int32)
    (running : Run (Guarded Drained (FinishStep env))
      (finishInitial env launch cols rows idleSeconds snippetEnabled) first u)
    (exit : FinishStep env u (.locked (.exit exitCode) true) v)
    (ending : Run (Guarded Drained (FinishStep env)) v later s) (returned : Returned s) :
    s.file = some (lastBytes scrollbackCap (stream (first ++ later)).flatten) ∧
    ∀ n, Live u.host n → (s.host.channels n).dead = false →
      (∃ before received, stream (first ++ later) = before ++ received ∧
        Attached before received (s.sent n)) ∧
      ∃ pre post, s.sent n = pre ++ .exit exitCode :: post ∧ outputs post = [] := by
  have hstreams : Streams (stream first) u.host :=
    running.history (I := fun past (s : FinishingHost G) => Streams (stream past) s.host)
      (fun h hstep => streams_step h hstep.2) []
      (initial_streams env launch cols rows idleSeconds snippetEnabled)
  obtain ⟨t, hlocked, hv⟩ : ∃ t, Step env u.host (.exit exitCode) t ∧
      v = { u with host := t, file := some u.host.scrollback.snapshot } := by
    cases exit with
    | locked _ _ hlocked => exact ⟨_, hlocked, rfl⟩
  have hexit : stream (first ++ [.locked (.exit exitCode) true]) = stream first := by
    rw [stream_concat]
    exact chunks_concat_of_none _ rfl
  have hended : Ended first v (first ++ [.locked (.exit exitCode) true] ++ later) s := by
    refine ending.history (I := Ended first v) (fun h hstep => h.step hstep) _ ⟨?_, ?_, hexit, rfl,
      fun n hn => ⟨hn, [], (List.append_nil _).symm, rfl⟩⟩
    · rw [hv]
      obtain ⟨-, clients, -, rfl⟩ := hlocked
      exact AttentionView.teardown_exited env _ exitCode
    · exact streams_step hstreams exit
  have htotal : stream (first ++ later) = stream first := by
    have hsplit := hended.silent
    unfold stream chunks at hsplit hexit ⊢
    rw [List.filterMap_append, List.filterMap_append, hexit] at hsplit
    rwa [List.filterMap_append, List.filterMap_append]
  rw [htotal]
  refine ⟨?_, fun n hlive halive => ?_⟩
  · rw [hended.file, hv, ← hstreams.data]
    rfl
  · have hsent : s.sent n = (s.host.channels n).frames := by
      unfold FinishingHost.sent
      rw [returned.2.2 n halive, List.take_length]
    obtain ⟨hseq, hframes⟩ := exit_step_frames hlocked hlive
    have hknown : n < v.host.clientSeq := by
      rw [hv, hseq]
      exact hstreams.fresh n (mem_keys hlive.1)
    obtain ⟨-, ext, hext, hout⟩ := hended.frames n hknown
    have hqueue : (s.host.channels n).frames =
        (u.host.channels n).frames ++ .exit exitCode :: ext := by
      rw [hext, hv, hframes, List.append_assoc]
      rfl
    rw [hsent, hqueue]
    refine ⟨?_, _, ext, rfl, hout⟩
    obtain ⟨before, hjoined⟩ := hstreams.live n hlive
    obtain ⟨received, rest, heq, hattached, hrest⟩ := hjoined.attached
    rw [hrest hlive, List.append_nil] at heq
    refine ⟨before, received, heq, ?_⟩
    have hlater := attached_append hattached (.exit exitCode :: ext)
    have hquiet : outputs (.exit exitCode :: ext) = [] := hout
    rwa [hquiet, List.append_nil] at hlater

/-- A client watches a short command whose output is read before the teardown. -/
def watched : List FinishEvent :=
  [.locked .connect true, .locked (.initialFramesTimer 0) true, .locked (.output [0x61]) true]

theorem output_kept_at_exit_watched : ∃ s,
    exec (finishNext plainEnv) (finishInitial plainEnv .headless 80 24 10 false)
        (watched ++ .locked (.exit 0) true :: [.eof, .writes 0, .writes 0, .writes 0, .writes 0]) =
          some s ∧
      s.file = some (lastBytes scrollbackCap [0x61]) := by
  refine ⟨_, rfl, ?_⟩
  refine (output_kept_at_exit plainEnv .headless 80 24 10 false watched
    [.eof, .writes 0, .writes 0, .writes 0, .writes 0] _ _ _ 0
    (.cons ⟨trivial, finishStep_of_next rfl⟩ (.cons ⟨trivial, finishStep_of_next rfl⟩
      (.cons ⟨rfl, finishStep_of_next rfl⟩ (.nil _))))
    (finishStep_of_next rfl)
    (.cons ⟨trivial, finishStep_of_next rfl⟩ (.cons ⟨trivial, finishStep_of_next rfl⟩
      (.cons ⟨trivial, finishStep_of_next rfl⟩ (.cons ⟨trivial, finishStep_of_next rfl⟩
        (.cons ⟨trivial, finishStep_of_next rfl⟩ (.nil _)))))) ⟨rfl, rfl, fun n _ => ?_⟩).1
  cases n with
  | zero => rfl
  | succ n => rfl

/-- The same command, whose output the reader gets to only after the teardown. -/
def unwatched : List FinishEvent :=
  [.locked .connect true, .locked (.initialFramesTimer 0) true, .locked (.exit 0) true,
    .locked (.output [0x61]) true, .eof, .writes 0, .writes 0, .writes 0]

/-- Neither the scrollback file nor the client gets any of the output, although the client was
live at the exit and all of its writes succeeded. -/
theorem late_output_lost : ∃ u s,
    exec (finishNext plainEnv) (finishInitial plainEnv .headless 80 24 10 false)
        (unwatched.take 2) = some u ∧
      exec (finishNext plainEnv) u (unwatched.drop 2) = some s ∧
      Live u.host 0 ∧ Returned s ∧ stream unwatched = [[0x61]] ∧ s.file = some [] ∧
      outputs (s.sent 0) = [] ∧ (s.host.channels 0).dead = false := by
  refine ⟨_, _, rfl, rfl, ⟨List.mem_singleton_self _, rfl⟩, ⟨rfl, rfl, fun n _ => ?_⟩, rfl, rfl, rfl,
    rfl⟩
  cases n with
  | zero => rfl
  | succ n => rfl

end Climon.Session.ExitRuns
