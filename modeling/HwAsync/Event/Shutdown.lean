/-
# What `shutdown_socket` leaves behind

`cleanup` runs `shutdown_socket` and then deletes the handlers.  It deletes the registered wait
timers, but it closes the socket and its file events only if `last_tick_id` is set, and the tick
timer, which `last_tick_id` names, it does not delete.

So nothing is left exactly if there was nothing of the connection in the center but registered
wait timers and the events of a socket, and a socket only together with a `last_tick_id` whose
timer is gone.
-/

import HwAsync.Event.Connection

namespace HwAsync.Event

open HwAsync.Lib
open HwAsync.Connect (RCState Policy Sent)

namespace Timing

/-- `clear` leaves no event of the connection exactly if all its events are registered wait
timers of its center. -/
theorem foreign_clear_iff {t : Timing} (h : t.Coherent) :
    (∀ c, ∀ e ∈ (t.clear.timers c).timeEvents, e.timeCb = .other) ↔
      ∀ c, ∀ e ∈ (t.timers c).timeEvents, e.timeCb ≠ .other →
        c = t.center ∧ e.timeCb = .wakeupHandler ∧ e.id ∈ t.registerTimeEvents := by
  have hself : t.clear.timers t.center =
      (t.timers t.center).deleteAll t.registerTimeEvents := onTimers_self _ _ _
  have hne {c : ℕ} (hc : c ≠ t.center) : t.clear.timers c = t.timers c := onTimers_of_ne _ _ hc
  have hmem := (mem_deleteAll (h.wellFormed t.center) t.registerTimeEvents).2
  constructor
  · intro hforeign c e he hown
    have hcenter : c = t.center := by
      by_contra hc
      exact hown (hforeign c e (hne hc ▸ he))
    subst hcenter
    have hid : e.id ∈ t.registerTimeEvents := by
      by_contra hid
      apply hown (hforeign t.center e _)
      rw [hself]
      exact (hmem e).mpr ⟨he, hid⟩
    exact ⟨rfl, h.wakeup e.id hid e he rfl, hid⟩
  · intro hregistered c e he
    by_contra hown
    by_cases hc : c = t.center
    · subst hc
      rw [hself] at he
      have hkept := (hmem e).mp he
      exact hkept.2 (hregistered t.center e hkept.1 hown).2.2
    · rw [hne hc] at he
      exact hc (hregistered c e he hown).1

end Timing

namespace World

/-- The socket is closed and no center holds an event of the connection. -/
structure Clean (w : World) : Prop where
  cs : w.conn.cs = none
  timers : ∀ c, ∀ e ∈ (w.centers c).timeEvents, e.timeCb = .other
  files : ∀ c fd, ((w.centers c).fileEvents fd).Foreign

/-- The time events of the connection are registered wait timers of its center, its file events
are those of its socket, and it has a socket exactly if `last_tick_id` is set. -/
structure Orderly (w : World) : Prop where
  timers : ∀ c, ∀ e ∈ (w.centers c).timeEvents, e.timeCb ≠ .other →
    c = w.conn.center ∧ e.timeCb = .wakeupHandler ∧ e.id ∈ w.conn.registerTimeEvents
  files : ∀ c fd, ¬ ((w.centers c).fileEvents fd).Foreign →
    c = w.conn.center ∧ w.conn.cs = some fd
  socket : w.conn.cs = none ↔ w.conn.lastTickId = 0

/-! ## Callbacks stand under their bits -/

/-- In every center. -/
def FilesWellFormed (w : World) : Prop := ∀ c, (w.centers c).FilesWellFormed

namespace FilesWellFormed

variable {w : World}

theorem onCenter (h : w.FilesWellFormed) {c : ℕ} {f : Center → Center}
    (hf : (f (w.centers c)).FilesWellFormed) : (w.onCenter c f).FilesWellFormed := by
  intro d
  show (Function.update w.centers c _ d).FilesWellFormed
  by_cases hd : d = c
  · rw [hd, Function.update_self]
    exact hf
  · rw [Function.update_of_ne hd]
    exact h d

theorem onTimers (h : w.FilesWellFormed) (c : ℕ) (f : Timers → Timers) :
    (w.onCenter c (Center.onTimers f)).FilesWellFormed :=
  h.onCenter (h c)

theorem createFileEvent (h : w.FilesWellFormed) (fd : ℕ) (mask : Mask) (ctxt : Callback) :
    (w.createFileEvent fd mask ctxt).FilesWellFormed :=
  h.onCenter ((h _).createFileEvent fd mask ctxt)

theorem deleteFileEvent (h : w.FilesWellFormed) (fd : ℕ) (mask : Mask) :
    (w.deleteFileEvent fd mask).FilesWellFormed :=
  h.onCenter ((h _).deleteFileEvent fd mask)

theorem stop (h : w.FilesWellFormed) : w.stop.FilesWellFormed := by
  unfold World.stop
  split
  · exact h
  · exact h

theorem shutdownSocket (h : w.FilesWellFormed) {t : World} (hshut : w.shutdownSocket = some t) :
    t.FilesWellFormed := by
  have hclear : w.clear.FilesWellFormed := h.onTimers _ _
  simp only [World.shutdownSocket] at hshut
  split at hshut
  · exact Option.some.inj hshut ▸ hclear
  · split at hshut
    · cases hshut
    · rw [← Option.some.inj hshut]
      exact hclear.deleteFileEvent _ _

theorem fault (h : w.FilesWellFormed) {queued : Bool} {expire : ℕ} {t : World}
    (hfault : w.fault queued expire = some t) : t.FilesWellFormed := by
  have hshut {u : World}
      (hu : (w.onConn fun c => { c with canWrite := .nowrite }).shutdownSocket = some u) :
      u.FilesWellFormed := by
    have hstart : (w.onConn fun c => { c with canWrite := .nowrite }).FilesWellFormed := h
    exact hstart.shutdownSocket hu
  simp only [World.fault] at hfault
  split at hfault
  · exact Option.some.inj hfault ▸ h
  · exact Option.some.inj hfault ▸ h.stop
  · simp only [Option.map_map, Option.map_eq_some_iff, Function.comp_apply] at hfault
    obtain ⟨u, hu, rfl⟩ := hfault
    have hafter := hshut hu
    exact stop hafter
  · simp only [Option.map_map, Option.map_eq_some_iff, Function.comp_apply] at hfault
    obtain ⟨u, hu, rfl⟩ := hfault
    have hafter := hshut hu
    exact hafter
  · simp only [Option.map_map, Option.map_eq_some_iff, Function.comp_apply] at hfault
    obtain ⟨u, hu, rfl⟩ := hfault
    have hafter := hshut hu
    exact hafter
  · simp only [Option.map_map, Option.map_eq_some_iff, Function.comp_apply] at hfault
    obtain ⟨u, hu, rfl⟩ := hfault
    have hafter := hshut hu
    exact hafter.onTimers _ _

theorem trySend (h : w.FilesWellFormed) (fd : ℕ) (sent : Sent) (queued : Bool) :
    (w.trySend fd sent queued).FilesWellFormed := by
  simp only [World.trySend]
  split
  · exact h
  split
  · split
    · exact h
    · exact h.createFileEvent _ _ _
  · split
    · exact h.deleteFileEvent _ _
    · exact h

theorem afterSend (h : w.FilesWellFormed) (sent : Sent) (next : RCState) :
    (w.afterSend sent next).FilesWellFormed := by
  cases sent with
  | failed => exact h
  | all => exact h
  | part => exact h

theorem calledBack (h : w.FilesWellFormed) {c : ℕ} {e : TimeEvent} {idle queued : Bool}
    {expire : ℕ} {t : World} (hback : w.calledBack c e idle queued expire = some t) :
    t.FilesWellFormed := by
  unfold World.calledBack at hback
  split at hback
  · exact Option.some.inj hback ▸ h
  · simp only [tick] at hback
    split at hback
    · split at hback
      · exact fault (show FilesWellFormed (w.onConn _) from h) hback
      · cases hback
    · split at hback
      · split at hback
        · exact Option.some.inj hback ▸ h.onTimers _ _
        · cases hback
      · exact Option.some.inj hback ▸ h
  · exact Option.some.inj hback ▸ h

theorem connecting (h : w.FilesWellFormed) (result : Option ℕ) :
    (w.connecting result).FilesWellFormed := by
  unfold World.connecting
  dsimp only
  cases w.conn.cs with
  | some fd =>
      have hclosed : FilesWellFormed
          ((w.deleteFileEvent fd .both).onConn fun c => { c with cs := none }) :=
        h.deleteFileEvent _ _
      split
      · exact hclosed
      · exact hclosed.createFileEvent _ _ _
  | none =>
      split
      · exact h
      · exact h.createFileEvent _ _ _

theorem connectingRe (h : w.FilesWellFormed) (needWritableEvent : Bool) (fd : ℕ)
    (isConnected : ℤ) (sent : Sent) (queued : Bool) :
    (w.connectingRe needWritableEvent fd isConnected sent queued).FilesWellFormed := by
  unfold World.connectingRe
  split
  · exact h
  split
  · split
    · exact h.createFileEvent _ _ _
    · exact h
  · exact ((h.deleteFileEvent _ _).trySend _ _ _).afterSend _ _

theorem transfer (h : w.FilesWellFormed) (fd : ℕ) : (w.transfer fd).FilesWellFormed := by
  have hmoved : (w.onConn fun c => { c with takeover := .idle }).FilesWellFormed := h
  simp only [World.transfer]
  split
  · exact h
  · exact hmoved.createFileEvent _ _ _

theorem ready (h : w.FilesWellFormed) (expire : ℕ) : (w.ready expire).FilesWellFormed := by
  have hdropped : w.dropTick.FilesWellFormed := by
    unfold dropTick
    split
    · exact h
    · exact h.onTimers _ _
  exact hdropped.onTimers _ _

theorem step (h : w.FilesWellFormed) {needWritableEvent : Bool} {a : Action} {t : World}
    (hstep : w.step needWritableEvent a = some t) : t.FilesWellFormed := by
  have hsame {u : World} (hu : u.FilesWellFormed) (h : some u = some t) : t.FilesWellFormed :=
    Option.some.inj h ▸ hu
  cases a with
  | otherCreate c expire => exact hsame (h.onTimers _ _) hstep
  | otherDelete c id => exact hsame (h.onTimers _ _) hstep
  | otherCreateFile c fd mask =>
      simp only [World.step] at hstep
      split at hstep
      · cases hstep
      · exact hsame (h.onCenter ((h c).createFileEvent fd mask .other)) hstep
  | otherDeleteFile c fd mask =>
      simp only [World.step] at hstep
      split at hstep
      · cases hstep
      · exact hsame (h.onCenter ((h c).deleteFileEvent fd mask)) hstep
  | accept fd | connect | advance state onceReady replacing =>
      simp only [World.step] at hstep
      split at hstep
      · exact hsame (by exact h) hstep
      · cases hstep
  | connecting result =>
      simp only [World.step] at hstep
      split at hstep
      · exact hsame (h.connecting result) hstep
      · cases hstep
  | connectingRe isConnected sent queued =>
      simp only [World.step] at hstep
      split at hstep
      · split at hstep
        · exact hsame (h.connectingRe _ _ _ _ _) hstep
        · cases hstep
      · cases hstep
  | accepting sent queued =>
      simp only [World.step] at hstep
      split at hstep
      · split at hstep
        · exact hsame (((h.createFileEvent _ _ _).trySend _ _ _).afterSend _ _) hstep
        · cases hstep
      · cases hstep
  | trySend sent queued =>
      simp only [World.step] at hstep
      split at hstep
      · split at hstep
        · cases hstep
        · exact hsame (h.trySend _ _ _) hstep
      · cases hstep
  | ready expire =>
      simp only [World.step] at hstep
      split at hstep
      · exact hsame (h.ready expire) hstep
      · cases hstep
  | throttle expire =>
      simp only [World.step, throttle] at hstep
      split at hstep
      · split at hstep
        · have harmed : (w.arm expire).FilesWellFormed := h.onTimers _ _
          exact hsame harmed hstep
        · exact hsame h hstep
      · cases hstep
  | fault queued expire => exact h.fault hstep
  | stop => exact hsame h.stop hstep
  | cleanup =>
      simp only [World.step, cleanup] at hstep
      split at hstep
      · rw [Option.map_eq_some_iff] at hstep
        obtain ⟨u, hu, rfl⟩ := hstep
        have hafter := h.shutdownSocket hu
        exact hafter
      · cases hstep
  | fire c now idle queued expire =>
      simp only [World.step] at hstep
      split at hstep
      · split at hstep
        · cases hstep
        · exact (h.onTimers _ _).calledBack hstep
      · cases hstep
  | replace =>
      simp only [World.step] at hstep
      split at hstep
      · cases hstep
      · exact hsame (by exact h) hstep
  | deactivate c fd =>
      simp only [World.step, deactivate] at hstep
      split at hstep
      · split at hstep
        · rw [Option.map_eq_some_iff] at hstep
          obtain ⟨u, hu, rfl⟩ := hstep
          have hstart : (w.onConn fun c => { c with openWrite := false }).FilesWellFormed := h
          have hafter := hstart.shutdownSocket hu
          exact hafter
        · exact hsame (by exact h) hstep
      · cases hstep
  | transfer =>
      simp only [World.step] at hstep
      split at hstep
      · split at hstep
        · exact hsame (h.transfer _) hstep
        · cases hstep
      · cases hstep
  | handOver =>
      simp only [World.step] at hstep
      split at hstep
      · rename_i fd _
        split at hstep
        · have hclosed : ((w.deleteFileEvent fd .both).onConn fun c =>
              { c with cs := none }).FilesWellFormed := h.deleteFileEvent fd .both
          exact hsame hclosed.stop hstep
        · cases hstep
      · cases hstep

end FilesWellFormed

/-! ## The two conditions agree -/

theorem clean_onConn {w : World} {f : Conn → Conn} (hcs : (f w.conn).cs = w.conn.cs) :
    (w.onConn f).Clean ↔ w.Clean :=
  ⟨fun h => ⟨hcs ▸ h.cs, h.timers, h.files⟩, fun h => ⟨hcs.trans h.cs, h.timers, h.files⟩⟩

theorem fileEvents_clear (c : ℕ) (w : World) :
    (w.clear.centers c).fileEvents = (w.centers c).fileEvents := by
  show (Function.update w.centers w.conn.center _ c).fileEvents = _
  by_cases hc : c = w.conn.center
  · rw [hc, Function.update_self]
    rfl
  · rw [Function.update_of_ne hc]

theorem fileEvents_deleteFileEvent_self (fd : ℕ) (mask : Mask) (w : World) :
    ((w.deleteFileEvent fd mask).centers w.conn.center).fileEvents fd =
      ((w.centers w.conn.center).fileEvents fd).delete mask := by
  show (Function.update w.centers w.conn.center _ w.conn.center).fileEvents fd = _
  rw [Function.update_self]
  exact Function.update_self ..

theorem fileEvents_deleteFileEvent_of_ne {c fd f : ℕ} (mask : Mask) (w : World)
    (hne : ¬ (c = w.conn.center ∧ f = fd)) :
    ((w.deleteFileEvent fd mask).centers c).fileEvents f = (w.centers c).fileEvents f := by
  show (Function.update w.centers w.conn.center _ c).fileEvents f = _
  by_cases hc : c = w.conn.center
  · rw [hc, Function.update_self]
    exact Function.update_of_ne (fun hf => hne ⟨hc, hf⟩) ..
  · rw [Function.update_of_ne hc]

/-- `shutdown_socket` of a connection with a `last_tick_id` and a socket. -/
theorem shutdownSocket_of_tick {w : World} {fd : ℕ} (htick : w.conn.lastTickId ≠ 0)
    (hcs : w.conn.cs = some fd) :
    w.shutdownSocket = some ((w.clear.deleteFileEvent fd .both).onConn fun c =>
      { c with cs := none }) := by
  have htick' : w.clear.conn.lastTickId ≠ 0 := htick
  have hcs' : w.clear.conn.cs = some fd := hcs
  simp only [shutdownSocket, if_neg htick', hcs']

/-- A shutdown that leaves nothing. -/
theorem Orderly.of_clean {w t : World} (hcoherent : w.timing.Coherent)
    (hshut : w.shutdownSocket = some t) (hclean : t.Clean) : w.Orderly := by
  have hcleared := timing_shutdownSocket hshut
  have hown := (Timing.foreign_clear_iff hcoherent).mp fun c e he =>
    hclean.timers c e (show e ∈ (t.timing.timers c).timeEvents from hcleared.symm ▸ he)
  by_cases htick : w.conn.lastTickId = 0
  · have hclear : w.clear = t := by
      have htick' : w.clear.conn.lastTickId = 0 := htick
      simpa only [shutdownSocket, if_pos htick', Option.some.injEq] using hshut
    subst hclear
    refine ⟨hown, fun c fd hforeign => ?_, fun _ => htick, fun _ => hclean.cs⟩
    have hclosed := hclean.files c fd
    rw [fileEvents_clear] at hclosed
    exact absurd hclosed hforeign
  · cases hcs : w.conn.cs with
    | none =>
        have htick' : w.clear.conn.lastTickId ≠ 0 := htick
        have hcs' : w.clear.conn.cs = none := hcs
        simp only [shutdownSocket, if_neg htick', hcs'] at hshut
        cases hshut
    | some fd =>
        obtain rfl := Option.some.inj ((shutdownSocket_of_tick htick hcs).symm.trans hshut)
        refine ⟨hown, fun c f hforeign => ?_, by simp [hcs, htick]⟩
        by_contra hne
        apply hforeign
        have hother : ¬ (c = w.clear.conn.center ∧ f = fd) :=
          fun hsame => hne ⟨hsame.1, hsame.2 ▸ hcs⟩
        have hclosed := hclean.files c f
        rw [show (((w.clear.deleteFileEvent fd .both).onConn fun c => { c with cs := none }).centers
          c).fileEvents f = (w.clear.centers c).fileEvents f from
            fileEvents_deleteFileEvent_of_ne .both w.clear hother, fileEvents_clear] at hclosed
        exact hclosed

/-- A connection that is in order leaves nothing. -/
theorem Orderly.clean {w : World} (h : w.Orderly) (hcoherent : w.timing.Coherent)
    (hfiles : w.FilesWellFormed) : ∃ t, w.shutdownSocket = some t ∧ t.Clean := by
  have htimers := (Timing.foreign_clear_iff hcoherent).mpr h.timers
  rw [← timing_clear] at htimers
  have hforeign {c fd : ℕ} (hne : ¬ (c = w.conn.center ∧ w.conn.cs = some fd)) :
      ((w.clear.centers c).fileEvents fd).Foreign := by
    rw [fileEvents_clear]
    by_contra hown
    exact hne (h.files c fd hown)
  by_cases htick : w.conn.lastTickId = 0
  · have htick' : w.clear.conn.lastTickId = 0 := htick
    have hcs := h.socket.mpr htick
    refine ⟨w.clear, if_pos htick', hcs, htimers, fun c fd => hforeign ?_⟩
    simp [hcs]
  · obtain ⟨fd, hcs⟩ := Option.ne_none_iff_exists'.mp (mt h.socket.mp htick)
    refine ⟨_, shutdownSocket_of_tick htick hcs, rfl, fun c e he => ?_, fun c f => ?_⟩
    · apply htimers c e
      rw [← timing_deleteFileEvent fd .both w.clear]
      exact he
    · by_cases hsame : c = w.clear.conn.center ∧ f = fd
      · obtain ⟨rfl, rfl⟩ := hsame
        have hentry := (hfiles w.conn.center) f
        rw [← fileEvents_clear] at hentry
        show (((w.clear.deleteFileEvent f .both).centers w.clear.conn.center).fileEvents f).Foreign
        rw [fileEvents_deleteFileEvent_self]
        exact hentry.foreign_delete
      · show (((w.clear.deleteFileEvent fd .both).centers c).fileEvents f).Foreign
        rw [fileEvents_deleteFileEvent_of_ne .both w.clear hsame]
        apply hforeign
        rintro ⟨hc, hf⟩
        rw [hcs, Option.some.injEq] at hf
        exact hsame ⟨hc, hf.symm⟩

/-! ## Runs -/

theorem coherent_of_reached {needWritableEvent : Bool} {w : World}
    (hreached : (machine needWritableEvent).Reached w) : w.timing.Coherent := by
  have hadmits : Timing.Admits fun _ _ => True :=
    ⟨fun _ _ _ => trivial, fun _ _ => trivial, fun _ => trivial, fun _ _ _ => trivial,
      fun _ _ => trivial⟩
  apply Timing.coherent_of_reached
  apply timing_of_reached hadmits
  apply hreached.mono
  intro w a _
  cases a <;> exact trivial

theorem filesWellFormed_of_reached {needWritableEvent : Bool} {w : World}
    (hreached : (machine needWritableEvent).Reached w) : w.FilesWellFormed :=
  hreached.invariant FilesWellFormed (fun _ h => Fresh.files h) fun _ _ _ h _ hstep =>
    h.step hstep

/-- **What a shutdown leaves.**  In every state of every run, `shutdown_socket` and `cleanup` close
the socket and leave no event of the connection exactly if the connection is in order before. -/
theorem clean_iff_orderly {needWritableEvent : Bool} {w : World}
    (hreached : (machine needWritableEvent).Reached w) :
    ((∃ t, w.shutdownSocket = some t ∧ t.Clean) ↔ w.Orderly) ∧
      ((∃ t, w.cleanup = some t ∧ t.Clean) ↔ w.Orderly) := by
  have hcoherent := coherent_of_reached hreached
  have hshut : (∃ t, w.shutdownSocket = some t ∧ t.Clean) ↔ w.Orderly :=
    ⟨fun ⟨_, hshut, hclean⟩ => .of_clean hcoherent hshut hclean,
      fun h => h.clean hcoherent (filesWellFormed_of_reached hreached)⟩
  refine ⟨hshut, ?_⟩
  rw [← hshut]
  simp only [cleanup, Option.map_eq_some_iff]
  constructor
  · rintro ⟨_, ⟨t, ht, rfl⟩, hclean⟩
    exact ⟨t, ht, (clean_onConn rfl).mp hclean⟩
  · rintro ⟨t, ht, hclean⟩
    exact ⟨_, ⟨t, ht, rfl⟩, (clean_onConn rfl).mpr hclean⟩

/-- The first attempt to connect fails, and the connection is closed while it waits for the
next one. -/
theorem clean_iff_orderly_backedOff :
    ∃ w, (machine false).Reached w ∧ w.conn.registerTimeEvents = [1] ∧
      ∃ t, w.cleanup = some t ∧ t.Clean := by
  obtain ⟨w, hreplay, hids, hcs, htick, hcenter, htimers, hfiles⟩ : ∃ w, (machine false).replay
      (fun _ _ => True) (created .plain 1) [.connect, .connecting none, .fault true 200, .stop] =
        some w ∧ w.conn.registerTimeEvents = [1] ∧ w.conn.cs = none ∧ w.conn.lastTickId = 0 ∧
      w.conn.center = 0 ∧
      (∀ c, (w.centers c).timeEvents = if c = 0 then [⟨1, 200, .wakeupHandler⟩] else []) ∧
      ∀ c fd, (w.centers c).fileEvents fd = ⟨.none, none, none⟩ :=
    ⟨_, rfl, rfl, rfl, rfl, rfl, fun c => by cases c <;> rfl, fun c fd => by cases c <;> rfl⟩
  have hreached : (machine false).Reached w :=
    .of_replay (.start (fresh_created .plain (by decide))) hreplay
  refine ⟨w, hreached, hids, (clean_iff_orderly hreached).2.mpr ⟨fun c e he _ => ?_, ?_, ?_⟩⟩
  · rw [htimers] at he
    split at he
    · rename_i hc
      rw [List.mem_singleton.mp he, hids, hcenter]
      exact ⟨hc, rfl, List.mem_singleton_self 1⟩
    · cases he
  · intro c fd hforeign
    rw [hfiles] at hforeign
    exact absurd ⟨fun _ h => (by cases h), fun _ h => (by cases h)⟩ hforeign
  · simp [hcs, htick]

/-- A connection that is closed before it became ready keeps its socket and its read event, and one
that became ready keeps its tick timer: both call back a deleted handler. -/
theorem not_clean_of_cleanup :
    (∃ w t, (machine false).Reached w ∧ w.conn.state = .closed ∧ w.cleanup = some t ∧
      t.conn.cs = some 5 ∧ ((t.centers 0).fileEvents 5).readCb = some .readHandler ∧ ¬ t.Clean) ∧
    ∃ w t, (machine false).Reached w ∧ w.conn.state = .closed ∧ w.cleanup = some t ∧
      ⟨1, 900, .tickHandler⟩ ∈ (t.centers 0).timeEvents ∧ ¬ t.Clean := by
  constructor
  · obtain ⟨w, t, hreplay, hstate, hcleanup, hcs, hcb⟩ : ∃ w t, (machine false).replay
        (fun _ _ => True) (created .plain 1) [.accept 5, .accepting .all false, .stop] = some w ∧
        w.conn.state = .closed ∧ w.cleanup = some t ∧ t.conn.cs = some 5 ∧
        ((t.centers 0).fileEvents 5).readCb = some .readHandler := ⟨_, _, rfl, rfl, rfl, rfl, rfl⟩
    refine ⟨w, t, .of_replay (.start (fresh_created .plain (by decide))) hreplay, hstate, hcleanup,
      hcs, hcb, fun hclean => ?_⟩
    rw [hclean.cs] at hcs
    cases hcs
  · obtain ⟨w, t, hreplay, hstate, hcleanup, hpending⟩ : ∃ w t, (machine false).replay
        (fun _ _ => True) (created .plain 1) [.accept 5, .accepting .all false,
          .advance .acceptingWaitConnectMsg false false, .advance .waitSend true false,
          .advance .acceptingReady true false, .ready 900, .stop] = some w ∧
        w.conn.state = .closed ∧ w.cleanup = some t ∧
        ⟨1, 900, .tickHandler⟩ ∈ (t.centers 0).timeEvents :=
      ⟨_, _, rfl, rfl, rfl, List.mem_singleton_self _⟩
    refine ⟨w, t, .of_replay (.start (fresh_created .plain (by decide))) hreplay, hstate, hcleanup,
      hpending, fun hclean => ?_⟩
    cases hclean.timers 0 _ hpending

/-- While nothing else deletes its tick timer, a connection in order has no socket and no
`last_tick_id`: it has not been ready yet, or its tick timer has fired. -/
theorem Orderly.idle {needWritableEvent : Bool} {w : World} (h : w.Orderly)
    (hreached : (machine needWritableEvent).ReachedUnder (Under Timing.SparesTick) w) :
    w.conn.lastTickId = 0 ∧ w.conn.cs = none := by
  have hadmits : Timing.Admits Timing.SparesTick :=
    ⟨fun _ _ _ => trivial, fun _ _ => trivial, fun _ => trivial, fun _ _ _ => trivial,
      fun _ _ => trivial⟩
  have hticking := Timing.ticking_of_sparesTick (timing_of_reached hadmits hreached)
  have htick : w.conn.lastTickId = 0 := by
    by_contra hne
    obtain ⟨c, e, he, -, hcb⟩ := hticking hne
    have hwakeup := (h.timers c e he (by rw [hcb]; decide)).2.1
    rw [hcb] at hwakeup
    cases hwakeup
  exact ⟨htick, h.socket.mpr htick⟩

end World

end HwAsync.Event
