import Herald.Broker
import Herald.Proofs.Event.Codec
import Herald.Proofs.Pipeline.Dispatch
import Herald.Proofs.Suggestion
import Herald.Recommendation

/-!
# Recommendations arrive

From the answer of the recommender to the job of the pool: the event that is published is the one that
the pipeline reads, and what comes of it is one notification for the user alone. It recommends the
accounts that have a name, and it goes out past the cooldowns and the history.

* `calls_recommend`, `requests_recommend`: what is asked of the publisher, and what then goes to the broker.
* `value_resolve`, `value_prepare`: the recipient and the job.
* `recommendations_arrive`: what becomes of a publication in a pipeline.
-/

namespace Herald.Recommendation

open Content Phrasing

variable {settings : Settings} {w : World} {user : UserId} {accounts : List UserId}
  {directories : Directories} {limit : Limit}

/-! ## Publications -/

/-- The recommender answers in time, with some accounts. -/
structure Recommended (settings : Settings) (w : World) (user : UserId) (accounts : List UserId) : Prop where
  inTime : (w.recommendations user settings.size).delay ≤ settings.limit.expiry
  answer : (w.recommendations user settings.size).answer = .ok accounts
  nonempty : accounts ≠ []

theorem calls_draft : (draft settings w user).calls = [.recommend user settings.size] := by
  unfold draft Timed.call
  rw [Timed.calls_bind]
  rcases (w.recommendations user settings.size).within settings.limit lookupName with
    ⟨delay, cause | (_ | ⟨account, accounts⟩)⟩ <;> rfl

theorem Recommended.value_draft (h : Recommended settings w user accounts) :
    (draft settings w user).value = some (.followRecommendations user accounts) := by
  obtain ⟨account, rest, rfl⟩ := List.exists_cons_of_ne_nil h.nonempty
  unfold draft
  rw [Timed.value_bind, Timed.value_call, Reply.within, if_pos h.inTime, h.answer]
  rfl

theorem recommended_of_value_draft {e : Event} (h : (draft settings w user).value = some e) :
    ∃ accounts, Recommended settings w user accounts ∧ e = .followRecommendations user accounts := by
  unfold draft at h
  rw [Timed.value_bind, Timed.value_call, Reply.within] at h
  by_cases hd : (w.recommendations user settings.size).delay ≤ settings.limit.expiry
  · rw [if_pos hd] at h
    cases ha : (w.recommendations user settings.size).answer with
    | error cause =>
      rw [ha] at h
      cases h
    | ok accounts =>
      rw [ha] at h
      cases accounts with
      | nil => cases h
      | cons account rest =>
        exact ⟨account :: rest, ⟨hd, ha, List.cons_ne_nil _ _⟩, (Option.some.inj h).symm⟩
  · rw [if_neg hd] at h
    cases h

/-- The publisher is called for the event that is to be published, if there is one. -/
theorem calls_recommend : (recommend settings w user).calls = .recommend user settings.size ::
    (draft settings w user).value.toList.map (.publish settings.queue) := by
  unfold recommend
  rw [Timed.calls_bind, calls_draft]
  cases (draft settings w user).value with
  | none => rfl
  | some e =>
    unfold Timed.call
    rcases w.publisher.within settings.limit publishName with ⟨delay, cause | ⟨⟩⟩ <;> rfl

/-- An event is published if it is to be, and the publisher takes it in time. -/
theorem value_recommend_eq_some {e : Event} : (recommend settings w user).value = some e ↔
    (draft settings w user).value = some e ∧
      w.publisher.delay ≤ settings.limit.expiry ∧ w.publisher.answer = .ok () := by
  unfold recommend
  rw [Timed.value_bind]
  cases (draft settings w user).value with
  | none => exact iff_of_false (Option.some_ne_none e).symm fun h => (Option.some_ne_none e).symm h.1
  | some d =>
    dsimp only
    rw [Timed.value_bind, Timed.value_call, Reply.within]
    by_cases hd : w.publisher.delay ≤ settings.limit.expiry
    · rw [if_pos hd]
      cases ha : w.publisher.answer with
      | error cause =>
        refine iff_of_false (Option.some_ne_none e).symm fun h => ?_
        cases h.2.2
      | ok done => exact ⟨fun h => ⟨h, hd, rfl⟩, And.left⟩
    · rw [if_neg hd]
      exact iff_of_false (Option.some_ne_none e).symm fun h => hd h.2.1

/-- What goes to the broker is the text of the event. -/
theorem requests_recommend : Broker.requests (recommend settings w user).calls =
    (draft settings w user).value.toList.map (Broker.publication settings.queue) := by
  rw [calls_recommend]
  cases (draft settings w user).value <;> rfl

/-! ## The recipient -/

/-- The preferences of a user are found out, or that there are none. -/
def Preferred (store : SettingsStore) (limit : Limit) (user : UserId) : Prop :=
  (store.user 0 user).delay ≤ limit.expiry ∧
    ((store.user 0 user).answer = .error .notFound ∨
      ∃ r, (store.user 0 user).answer = .ok r ∧ r.user = user)

/-- The user is told with the preferences that were found, or with the default ones. -/
theorem value_resolve {r : Resolver} (h : Preferred r.settings r.limit user) :
    ∃ recipient, recipient.user = user ∧
      (r.resolve (.followRecommendations user accounts)).run.value = .ok [recipient] := by
  obtain ⟨hd, ha⟩ := h
  have hu : (r.user 0 user).run.value =
      Resolver.orAbsent (.withDefaults user) (.settings user) (r.settings.user 0 user).answer := by
    show Resolver.orAbsent _ _ ((r.settings.user 0 user).within r.limit "settings lookup").answer = _
    rw [Reply.within, if_pos hd]
  have hb : r.resolve (.followRecommendations user accounts) = (do
      let recipient ← r.user 0 user
      pure [recipient]) := rfl
  rw [hb, Timed.value_run_bind, hu]
  rcases ha with ha | ⟨recipient, ha, hr⟩
  · rw [ha]
    exact ⟨.withDefaults user, rfl, rfl⟩
  · rw [ha]
    exact ⟨recipient, hr, rfl⟩

/-- The event makes a job for the user alone. -/
theorem value_prepare {config : Pipeline.Settings} {v : Pipeline.World}
    (hk : Known v.directories config.delivery.limit accounts) (hn : named v.directories accounts ≠ [])
    (hp : Preferred v.audience config.delivery.limit user) :
    ∃ recipient, recipient.user = user ∧
      (Pipeline.prepare config v (.followRecommendations user accounts)).value =
        .ok ⟨[recipient], suggestion user (named v.directories accounts)⟩ := by
  obtain ⟨recipient, hr, ht⟩ : ∃ recipient, recipient.user = user ∧
      ((Pipeline.resolver config v).resolve (.followRecommendations user accounts)).run.value =
        .ok [recipient] := value_resolve hp
  have hv : (Pipeline.prepare config v (.followRecommendations user accounts)).value = Pipeline.jobOf
      ((Registry.standard v.directories config.delivery.limit).build
        (.followRecommendations user accounts)).run.value
      ((Pipeline.resolver config v).resolve (.followRecommendations user accounts)).run.value := rfl
  rw [hv, value_build hk hn, ht]
  exact ⟨recipient, hr, rfl⟩

/-! ## From the recommender to the pool -/

theorem decode?_encode (e : Event) : Event.decode? (Utf8.encode e.encode) = some e := by
  rw [Event.decode?, Source.ofOctets?_written (Event.written_encode e), Option.bind_some,
    Event.ofSource?_of_presents (Event.presents_toJson e)]

/-- Nothing but one event is published for a user, and it is asked for if the recommender answers in time
with some accounts. It is published if the publisher takes it in time.

It names the user and the accounts in order, and a pipeline that is given what goes to the broker reads the
same event. Let the names of the accounts be found out, at least one of them, and the preferences of
the user. Then, unless somebody stops the pool, the message comes to nothing else than one job, and it
does come to that: for the user alone, with the accounts that have a name, in order and each as often as
it was recommended. Three of them are named, and the others are counted. Neither cooldowns nor the history
have to do with it. -/
theorem recommendations_arrive :
    (Broker.requests (recommend settings w user).calls).length ≤ 1 ∧
    (∀ e, (recommend settings w user).value = some e ↔
      .publish settings.queue e ∈ (recommend settings w user).calls ∧
        w.publisher.delay ≤ settings.limit.expiry ∧ w.publisher.answer = .ok ()) ∧
    ((∀ accounts, ¬Recommended settings w user accounts) →
      (recommend settings w user).calls = [.recommend user settings.size]) ∧
    ∀ accounts, Recommended settings w user accounts →
      (recommend settings w user).calls = [.recommend user settings.size,
        .publish settings.queue (.followRecommendations user accounts)] ∧
      ∃ text, Broker.requests (recommend settings w user).calls = [.publish settings.queue text] ∧
        Event.decode? (Utf8.encode text) = some (.followRecommendations user accounts) ∧
        ∀ (config : Pipeline.Settings) (size capacity sinkCapacity : Nat)
          (acts : List (Pipeline.World × Pipeline.Move)) (s : Pipeline.State) (v : Pipeline.World)
          (number : Nat),
          Pipeline.State.Run config (.create size capacity sinkCapacity) acts s → 0 < size →
          s.pool.shutdown = .none →
          (Pipeline.messages acts)[number]? = some (v, .arrive (Utf8.encode text)) →
          Known v.directories config.delivery.limit accounts → named v.directories accounts ≠ [] →
          Preferred v.audience config.delivery.limit user →
          ∃ recipient notification, recipient.user = user ∧
            Recommends notification (named v.directories accounts) ∧
            Pipeline.Dispatches config s number ⟨[recipient], notification⟩ ∧
            Pipeline.Bypasses s number := by
  refine ⟨?_, fun e => ?_, fun hnone => ?_, fun accounts h => ⟨?_, ?_⟩⟩
  · rw [requests_recommend, List.length_map]
    cases (draft settings w user).value <;> simp
  · rw [value_recommend_eq_some, calls_recommend]
    simp
  · have hdraft : (draft settings w user).value = none :=
      Option.eq_none_iff_forall_ne_some.2 fun e he =>
        let ⟨accounts, h, _⟩ := recommended_of_value_draft he
        hnone accounts h
    rw [calls_recommend, hdraft]
    rfl
  · rw [calls_recommend, h.value_draft]
    rfl
  refine ⟨Event.encode (.followRecommendations user accounts), ?_, decode?_encode _, ?_⟩
  · rw [requests_recommend, h.value_draft]
    rfl
  intro config size capacity sinkCapacity acts s v number run hs hn hm hk hnamed hp
  obtain ⟨recipient, hr, hj⟩ := value_prepare hk hnamed hp
  have he : (Pipeline.Move.arrive (Utf8.encode (Event.encode (.followRecommendations user accounts)))).event? =
      some (.followRecommendations user accounts) := decode?_encode _
  have hd := run.dispatches hs hn hm he hj
  refine ⟨recipient, _, hr, ⟨rfl, rfl, rfl⟩, hd, run.bypasses fun o ho ho' e he => ?_⟩
  have hc : e.notification.category = .followRecommendations := by
    rw [(Delivery.Job.mem_errands.1 he).2.1, hd.orders o ho ho']
    rfl
  refine ⟨?_, by rw [hc]; rfl⟩
  unfold Delivery.Errand.window? Cooldown.window?
  rw [hc]
  rfl

/-- Five accounts are recommended, of which one is twice among them and one has no name. -/
def fiveAccounts : World where
  recommendations _ _ := ⟨5, .ok [4, 5, 4, 6, 7]⟩
  publisher := .now ()

/-- Everybody but user 5 has a name. -/
def namelessFive : Pipeline.World :=
  { Pipeline.plainWorld with
    directories := ⟨fun _ user => .now (if user = 5 then none else some "ann"), fun _ => .now none⟩ }

theorem recommendations_arrive_fiveAccounts : ∃ text acts s recipient notification,
    Broker.requests (recommend ⟨"events", 5, .ofMillis 10⟩ fiveAccounts 1).calls = [.publish "events" text] ∧
    (recommend ⟨"events", 5, .ofMillis 10⟩ fiveAccounts 1).value =
      some (.followRecommendations 1 [4, 5, 4, 6, 7]) ∧
    Pipeline.State.Run Pipeline.plainSettings (.create 1 1 1) acts s ∧
    Pipeline.messages acts = [(namelessFive, .arrive (Utf8.encode text))] ∧
    recipient.user = 1 ∧ notification.arguments.members = [("ids", .ofIds [4, 4, 6, 7])] ∧
    notification.alert.arguments = ["ann", "ann", "ann", "1"] ∧
    (s.finish Pipeline.plainSettings namelessFive).pool.accepted.filter (·.number = 0) =
      [⟨0, [recipient], notification⟩] := by
  obtain ⟨-, hvalue, -, published⟩ :=
    @recommendations_arrive ⟨"events", 5, .ofMillis 10⟩ fiveAccounts 1
  obtain ⟨hcalls, text, ht, -, arrives⟩ := published [4, 5, 4, 6, 7] ⟨by decide, rfl, by decide⟩
  have hpublished := (hvalue _).2 ⟨hcalls ▸ List.mem_cons_of_mem _ List.mem_cons_self, by decide, rfl⟩
  let s := (Pipeline.State.create 1 1 1).arrive Pipeline.plainSettings namelessFive (Utf8.encode text)
  have hstep : (Pipeline.State.create 1 1 1).step Pipeline.plainSettings namelessFive
      (.arrive (Utf8.encode text)) = some s := rfl
  have run : Pipeline.State.Run Pipeline.plainSettings (.create 1 1 1)
      [(namelessFive, .arrive (Utf8.encode text))] s := .step _ .refl hstep
  have hshut : s.pool.shutdown = .none := Pipeline.Step.shutdown (.of_step hstep) nofun
  obtain ⟨recipient, notification, hr, hn, hd, -⟩ :=
    arrives _ 1 1 1 _ s namelessFive 0 run (by decide) hshut rfl
      (fun p _ => ⟨Nat.zero_le _, _, rfl⟩) (by decide) ⟨Nat.zero_le _, .inl rfl⟩
  exact ⟨text, _, s, recipient, notification, ht, hpublished, run, rfl, hr, hn.ids, hn.names,
    hd.finally_orders namelessFive⟩

end Herald.Recommendation
