import Lnmp.Foundation.Runs
import Lnmp.Sessions.SessionStore

/-!
# Revoked sessions

The calls of the Redis driver for one user, command by command: every call of `register_session` or
`invalidate_session` reads the list of the user with a GET and writes it back with a later SET, and
other calls, of other workers and of background tasks too, run in between. A login, a logout and a
reset of the password make their call once while the client waits and once more in the background.

`staysRevoked_iff_everyStep` says when a session that was revoked is never active again: when no SET
writes a list with a session in it whose revocation is complete.
-/

set_option autoImplicit false
set_option relaxedAutoImplicit false

namespace Lnmp.Sessions

open Lnmp.Foundation Lnmp.Foundation.BoundedQueue Lnmp.Foundation.Runs

/-! ### Calls -/

/-- A call, and what it has read so far. A client waits for an awaited one. A call revokes the
sessions whose login was complete when it was issued. -/
inductive RedisTask
  | register (jti : SessionId) (awaited : Bool)
  | registerRead (jti : SessionId) (awaited : Bool) (sessions : List SessionId)
  | invalidate (jti : SessionId) (awaited revokes : Bool)
  | invalidateRead (jti : SessionId) (awaited revokes : Bool) (raw : List SessionId)
  | invalidateTimed (jti : SessionId) (awaited revokes : Bool) (raw : List SessionId) (ttl : ℤ)
  | invalidateAll (awaited : Bool) (revokes : List SessionId)
  deriving DecidableEq

/-- The sessions of a user in Redis: the keys, the calls that are under way, the ids of all sessions
and of those whose login is complete, and the revoked ones. -/
structure RedisSessions where
  keys : SessionKeys
  clock : ℤ
  tasks : List RedisTask
  issued : List SessionId
  loggedIn : List SessionId
  revoked : List SessionId
  deriving DecidableEq

/-- What happens: a request makes its call, a call runs its next command or is ended by an error, or
time passes. -/
inductive RedisEvent
  | login (jti : SessionId)
  | logout (jti : SessionId)
  | resetPassword
  | command (index : ℕ)
  | fail (index : ℕ)
  | wait (duration : ℕ)
  deriving DecidableEq

/-- The session of an `invalidate_session` that was issued after its login. -/
def revokedBy (jti : SessionId) (revokes : Bool) : List SessionId := if revokes then [jti] else []

/-- The sessions that remain when one is removed. -/
def remaining (raw : List SessionId) (jti : SessionId) : List SessionId := raw.filter (· ≠ jti)

namespace RedisSessions

variable (userId : UserId) (maxSessions : ℕ) (service : RedisSessions)

/-- The end of a call, behind which an awaited one makes the same call in the background. -/
def finish (rest : List RedisTask) (awaited : Bool) (again : RedisTask) : RedisSessions :=
  { service with tasks := rest ++ if awaited then [again] else [] }

/-- The end of an `invalidate_session`. -/
def finishInvalidate (rest : List RedisTask) (jti : SessionId) (awaited revokes : Bool) :
    RedisSessions :=
  { service.finish rest awaited (.invalidate jti false revokes) with
    revoked := service.revoked ++ revokedBy jti revokes }

/-- The next command of a call, beside the other calls. The id of a new session is not in memory, so
that its login registers it once more. -/
def perform (rest : List RedisTask) : RedisTask → RedisSessions
  | .register jti awaited =>
    { service with
      tasks := rest ++
        [.registerRead jti awaited ((service.keys.getKey userId service.clock).getD [])] }
  | .registerRead jti awaited sessions =>
    { service.finish rest awaited (.register jti false) with
      keys := service.keys.setKey userId (appendSession maxSessions sessions jti) defaultTtlSeconds
        service.clock
      loggedIn := if awaited then service.loggedIn ++ [jti] else service.loggedIn }
  | .invalidate jti awaited revokes =>
    match service.keys.getKey userId service.clock with
    | none => service.finishInvalidate rest jti awaited revokes
    | some raw => { service with tasks := rest ++ [.invalidateRead jti awaited revokes raw] }
  | .invalidateRead jti awaited revokes raw =>
    if remaining raw jti = [] then
      { service.finishInvalidate rest jti awaited revokes with
        keys := service.keys.deleteKey userId }
    else
      { service with
        tasks := rest ++
          [.invalidateTimed jti awaited revokes raw (service.keys.ttl userId service.clock)] }
  | .invalidateTimed jti awaited revokes raw ttl =>
    { service.finishInvalidate rest jti awaited revokes with
      keys := service.keys.setKey userId (remaining raw jti) (SessionKeys.renewal ttl)
        service.clock }
  | .invalidateAll awaited revokes =>
    { service.finish rest awaited (.invalidateAll false service.loggedIn) with
      keys := service.keys.deleteKey userId
      revoked := service.revoked ++ revokes }

/-- The sessions after an event. A login has an id that no session had before. -/
def next : RedisEvent → RedisSessions
  | .login jti =>
    if jti ∈ service.issued then service
    else
      { service with
        tasks := service.tasks ++ [.register jti true]
        issued := service.issued ++ [jti] }
  | .logout jti =>
    { service with tasks := service.tasks ++ [.invalidate jti true (jti ∈ service.loggedIn)] }
  | .resetPassword =>
    { service with tasks := service.tasks ++ [.invalidateAll true service.loggedIn] }
  | .command index =>
    match service.tasks[index]? with
    | none => service
    | some task => service.perform userId maxSessions (service.tasks.eraseIdx index) task
  | .fail index => { service with tasks := service.tasks.eraseIdx index }
  | .wait duration => { service with clock := service.clock + duration }

/-- A user without calls under way. -/
def start (keys : SessionKeys) (clock : ℤ) : RedisSessions where
  keys := keys
  clock := clock
  tasks := []
  issued := []
  loggedIn := []
  revoked := []

/-- No revoked session is active. -/
def StaysRevoked : Prop :=
  ∀ jti ∈ service.revoked, service.keys.isSessionActive userId jti service.clock = false

end RedisSessions

/-- The list that the next command of a call writes. -/
def RedisTask.written (maxSessions : ℕ) : RedisTask → List SessionId
  | .registerRead jti _ sessions => appendSession maxSessions sessions jti
  | .invalidateTimed jti _ _ raw _ => remaining raw jti
  | .register .. | .invalidate .. | .invalidateRead .. | .invalidateAll .. => []

/-- A command writes no revoked session. -/
def RedisSessions.WritesNoRevoked (maxSessions : ℕ) (service : RedisSessions) : RedisEvent → Prop
  | .command index => ∀ task, service.tasks[index]? = some task →
    ∀ jti ∈ task.written maxSessions, jti ∉ service.revoked
  | .login _ | .logout _ | .resetPassword | .fail _ | .wait _ => True

/-! ### Steps -/

namespace RedisSessions

variable {userId : UserId} {maxSessions : ℕ} {service : RedisSessions}

theorem mem_revokedBy {jti session : SessionId} {revokes : Bool}
    (hmem : session ∈ revokedBy jti revokes) : session = jti := by
  rw [revokedBy] at hmem
  split at hmem
  · exact List.mem_singleton.mp hmem
  · exact absurd hmem List.not_mem_nil

/-- Sessions are inactive after a SET exactly when it writes none of them. -/
theorem inactive_setKey_iff {keys : SessionKeys} {sessions revoked : List SessionId}
    {ttl clock : ℤ} (httl : 0 < ttl) :
    (∀ jti ∈ revoked,
        (keys.setKey userId sessions ttl clock).isSessionActive userId jti clock = false) ↔
      ∀ jti ∈ sessions, jti ∉ revoked := by
  constructor
  · intro hinactive session hmem hrevoked
    refine Bool.false_ne_true ((hinactive session hrevoked).symm.trans ?_)
    exact (SessionKeys.isSessionActive_setKey httl).mpr hmem
  · intro hwrites session hrevoked
    refine Bool.eq_false_iff.mpr fun hactive ↦ ?_
    exact hwrites session ((SessionKeys.isSessionActive_setKey httl).mp hactive) hrevoked

/-- The step lemma: a command keeps the revoked sessions inactive exactly when it writes none. -/
theorem staysRevoked_perform_iff (hstays : service.StaysRevoked userId) (rest : List RedisTask)
    (task : RedisTask) :
    (service.perform userId maxSessions rest task).StaysRevoked userId ↔
      ∀ jti ∈ task.written maxSessions, jti ∉ service.revoked := by
  cases task with
  | register jti awaited =>
    exact iff_of_true hstays fun _ hmem ↦ absurd hmem List.not_mem_nil
  | registerRead jti awaited sessions => exact inactive_setKey_iff defaultTtlSeconds_pos
  | invalidate jti awaited revokes =>
    refine iff_of_true ?_ fun _ hmem ↦ absurd hmem List.not_mem_nil
    simp only [perform]
    split
    · -- The key is gone, and with it all sessions.
      rename_i hnone
      intro session _
      refine Bool.eq_false_iff.mpr fun hactive ↦ ?_
      obtain ⟨sessions, hget, -⟩ := SessionKeys.isSessionActive_iff.mp hactive
      exact absurd (hnone.symm.trans hget) (Option.some_ne_none _).symm
    · exact hstays
  | invalidateRead jti awaited revokes raw =>
    refine iff_of_true ?_ fun _ hmem ↦ absurd hmem List.not_mem_nil
    simp only [perform]
    split
    · exact fun _ _ ↦ SessionKeys.isSessionActive_deleteKey
    · exact hstays
  | invalidateTimed jti awaited revokes raw ttl =>
    refine (inactive_setKey_iff (SessionKeys.renewal_pos ttl)).trans
      (forall₂_congr fun session hmem ↦ not_congr ?_)
    -- The session that the call revokes is not in the list that it writes.
    refine List.mem_append.trans (or_iff_left fun hnew ↦ ?_)
    obtain rfl := mem_revokedBy hnew
    exact absurd rfl (of_decide_eq_true (List.mem_filter.mp hmem).2)
  | invalidateAll awaited revokes =>
    refine iff_of_true ?_ fun _ hmem ↦ absurd hmem List.not_mem_nil
    exact fun _ _ ↦ SessionKeys.isSessionActive_deleteKey

/-! ### Calls without others in between -/

section Undisturbed

variable {rest : List RedisTask}

/-- The next command of the last call. -/
theorem next_command_last {task : RedisTask} (htasks : service.tasks = rest ++ [task]) :
    next userId maxSessions service (.command rest.length) =
      service.perform userId maxSessions rest task := by
  have htask : service.tasks[rest.length]? = some task := by simp [htasks]
  rw [next, htask]
  simp [htasks, List.eraseIdx_append]

/-- The sessions after some commands of the last call. -/
def commands (userId : UserId) (maxSessions : ℕ) (service : RedisSessions) (rest : List RedisTask)
    (count : ℕ) : RedisSessions :=
  (fun service ↦ next userId maxSessions service (.command rest.length))^[count] service

theorem commands_succ {task : RedisTask} (htasks : service.tasks = rest ++ [task]) (count : ℕ) :
    commands userId maxSessions service rest (count + 1) =
      commands userId maxSessions (service.perform userId maxSessions rest task) rest count := by
  rw [commands, Function.iterate_succ_apply, next_command_last htasks, commands]

/-- A registration whose two commands run one after the other does what `registerSession` does. -/
theorem keys_commands_register {jti : SessionId} {awaited : Bool}
    (htasks : service.tasks = rest ++ [.register jti awaited]) :
    (commands userId maxSessions service rest 2).keys =
      service.keys.registerSession userId jti maxSessions defaultTtlSeconds service.clock := by
  rw [commands_succ htasks, commands_succ rfl]
  rfl

/-- The commands of a logout behind its GET. -/
theorem exists_commands_invalidateRead {jti : SessionId} {awaited revokes : Bool}
    {raw : List SessionId}
    (htasks : service.tasks = rest ++ [.invalidateRead jti awaited revokes raw]) :
    ∃ count,
      (commands userId maxSessions service rest count).keys =
          (if remaining raw jti = [] then service.keys.deleteKey userId
          else service.keys.setKey userId (remaining raw jti)
            (SessionKeys.renewal (service.keys.ttl userId service.clock)) service.clock) ∧
        (commands userId maxSessions service rest count).tasks =
          rest ++ if awaited then [.invalidate jti false revokes] else [] := by
  by_cases hempty : remaining raw jti = []
  · refine ⟨1, ?_⟩
    rw [commands_succ htasks, perform, if_pos hempty, if_pos hempty]
    exact ⟨rfl, rfl⟩
  · refine ⟨2, ?_⟩
    rw [commands_succ htasks, perform, if_neg hempty, if_neg hempty, commands_succ rfl]
    exact ⟨rfl, rfl⟩

/-- A logout whose commands run one after the other does what `invalidateSession` does. -/
theorem exists_commands_invalidate {jti : SessionId} {awaited revokes : Bool}
    (htasks : service.tasks = rest ++ [.invalidate jti awaited revokes]) :
    ∃ count,
      (commands userId maxSessions service rest count).keys =
          service.keys.invalidateSession userId jti service.clock ∧
        (commands userId maxSessions service rest count).tasks =
          rest ++ if awaited then [.invalidate jti false revokes] else [] := by
  rw [SessionKeys.invalidateSession]
  cases hget : service.keys.getKey userId service.clock with
  | none =>
    refine ⟨1, ?_⟩
    rw [commands_succ htasks, perform, hget]
    exact ⟨rfl, rfl⟩
  | some raw =>
    have hread : service.perform userId maxSessions rest (.invalidate jti awaited revokes) =
        { service with tasks := rest ++ [.invalidateRead jti awaited revokes raw] } := by
      rw [perform, hget]
    obtain ⟨count, hkeys, hrest⟩ := exists_commands_invalidateRead
      (congrArg RedisSessions.tasks hread)
    refine ⟨count + 1, ?_⟩
    rw [commands_succ htasks]
    refine ⟨hkeys.trans ?_, hrest⟩
    rw [hread]
    rfl

end Undisturbed

/-! ### Histories -/

/-- In every order of the commands of all calls, no revoked session is ever active again exactly
when no command writes one. -/
theorem staysRevoked_iff_everyStep (keys : SessionKeys) (clock : ℤ) (events : List RedisEvent) :
    EveryState (fun service event ↦ some (next userId maxSessions service event))
        (start keys clock) events (StaysRevoked userId) ↔
      EveryStep (fun service event ↦ some (next userId maxSessions service event))
        (start keys clock) events (WritesNoRevoked maxSessions) := by
  refine everyState_iff_everyStep (fun _ ↦ True) _ (fun _ _ _ _ _ ↦ trivial) ?_ trivial
    (fun _ hrevoked ↦ absurd hrevoked List.not_mem_nil) (run_some ..)
  rintro service event _ - hstays hnext
  obtain rfl := Option.some.inj hnext
  cases event with
  | login jti =>
    refine iff_of_true ?_ trivial
    rw [next]
    split <;> exact hstays
  | logout jti => exact iff_of_true hstays trivial
  | resetPassword => exact iff_of_true hstays trivial
  | fail index => exact iff_of_true hstays trivial
  | wait duration =>
    refine iff_of_true (fun session hrevoked ↦ ?_) trivial
    refine Bool.eq_false_iff.mpr fun hactive ↦ ?_
    have hbefore := SessionKeys.isSessionActive_of_later
      (show service.clock ≤ service.clock + duration by omega) hactive
    exact Bool.false_ne_true ((hstays session hrevoked).symm.trans hbefore)
  | command index =>
    rw [next]
    split
    · rename_i hnone
      refine iff_of_true hstays fun task htask ↦ ?_
      exact absurd (hnone.symm.trans htask) (Option.some_ne_none _).symm
    · rename_i task htask
      refine (staysRevoked_perform_iff hstays _ task).trans ?_
      constructor
      · intro hwrites other hother
        rw [htask, Option.some_inj] at hother
        exact hother ▸ hwrites
      · exact fun hwrites ↦ hwrites task htask

/-- A login, and a logout that is complete before the login has registered its session once more. -/
def lateEvents : List RedisEvent :=
  [.login 1, .command 0, .command 0, .logout 1, .command 1, .command 1, .command 0, .command 1]

/-- The registration in the background brings a session back that was revoked. -/
theorem not_staysRevoked_lateEvents :
    ¬EveryState (fun service event ↦ some (next 7 2 service event)) (start Dict.empty 0) lateEvents
      (StaysRevoked 7) := by
  intro hstays
  have hlast : StaysRevoked 7 (lateEvents.foldl (next 7 2) (start Dict.empty 0)) :=
    hstays lateEvents [] _ (List.append_nil _).symm (run_some ..)
  exact absurd (hlast 1 (by decide)) (by decide)

end RedisSessions

end Lnmp.Sessions
