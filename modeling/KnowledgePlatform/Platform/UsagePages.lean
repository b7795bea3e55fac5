import KnowledgePlatform.Foundations.Paging
import KnowledgePlatform.Platform.Privileges

/-!
# Reading the ledger page by page

The usage page fetches the events of the organization a page at a time, the newest
first, and offers the next page as long as the last one was full.  Between two
fetches the platform goes on, and new events move the older ones to later pages.

Whoever pages on to the end has been shown every event that was there at the
beginning: an event never moves to an earlier page, since usage events are neither
deleted nor dated anew.  As many rows are shown as there are events at the end, so
an event is shown twice exactly for every one that has been added unseen.
-/

open Api Core Foundations Python Relational

namespace Platform

variable {settings : Settings} {crypto : Crypto} {orgId : Uuid} {size : ℕ}

/-- The usage events of an organization. -/
abbrev usageOf (orgId : Uuid) (world : World) : List UsageEvent :=
  orgRows orgId world.db .usageEvents

/-- A fetch of a page of usage events: `usageApi.events(pageSize, page * pageSize)`. -/
def Fetches (settings : Settings) (crypto : Crypto) (orgId : Uuid) (size number : ℕ)
    (world : World) (page : List UsageEvent) (world' : World) : Prop :=
  ∃ userId viaApiKey now, Step settings crypto world
    (.served orgId userId viaApiKey (.usageEvents size (number * size)) now
      (.rows .usageEvents page)) world'

/-- A user of the organization opens the usage page and goes to the next page several
times, which the last page offers when it is full.  `earlier` are the pages before the
last one. -/
inductive Walk (settings : Settings) (crypto : Crypto) (orgId : Uuid) (size : ℕ) (start : World) :
    List (List UsageEvent) → List UsageEvent → World → Prop
  | opened {trace : List Event} {middle world : World} {page : List UsageEvent} :
      Runs settings crypto start trace middle →
      Fetches settings crypto orgId size 0 middle page world →
      Walk settings crypto orgId size start [] page world
  | next {trace : List Event} {world middle world' : World} {earlier : List (List UsageEvent)}
      {last page : List UsageEvent} :
      Walk settings crypto orgId size start earlier last world → size ≤ last.length →
      Runs settings crypto world trace middle →
      Fetches settings crypto orgId size (earlier.length + 1) middle page world' →
      Walk settings crypto orgId size start (earlier ++ [last]) page world'

/-! ## One page -/

/-- A bound session selects the rows of its organization. -/
theorem eq_orgRows_of_bound {conn : Conn} (hrole : conn.role = .appUser)
    (horg : conn.currentOrg = some orgId) {table : Table} {rows : List (Row table)}
    (h : conn.policy.selectRows conn.db table (fun _ => true) = .ok rows) :
    rows = orgRows orgId conn.db table := by
  unfold Policy.selectRows at h
  split at h
  · cases h
    refine List.filter_congr fun row _ => ?_
    simp [Conn.policy, Core.policy, hrole, horg, orgIsolation]
  · cases h

/-- What a fetch shows is a page of the events of the organization, the newest first. -/
theorem page_of_fetch {number : ℕ} {world world' : World} {page : List UsageEvent}
    (h : Fetches settings crypto orgId size number world page world') :
    world'.db = world.db ∧
      page = pageOf size number (newestFirst UsageEvent.createdAt (usageOf orgId world)) := by
  obtain ⟨userId, viaApiKey, now, hstep⟩ := h
  cases hstep with
  | served _ hrun =>
      unfold serve at hrun
      rw [Program.runs_bind] at hrun
      obtain ⟨principal, middle, hguard, hhandle⟩ := hrun
      obtain ⟨rfl, hadmitted⟩ := guardPrincipal_eq_ok hguard
      unfold handle rowsOf at hhandle
      obtain ⟨shown, hlist, hshown⟩ := Program.runs_map.mp hhandle
      cases hshown
      simp only [listUsageEvents, Program.runs_bind, runs_scalars, Program.runs_pure] at hlist
      obtain ⟨events, _, ⟨hselect, rfl⟩, rfl, rfl⟩ := hlist
      refine ⟨rfl, ?_⟩
      have hevents : events = usageOf orgId world := eq_orgRows_of_bound rfl rfl hselect
      rw [hevents, pageOf]

theorem descending_newestFirst (events : List UsageEvent) :
    Descending UsageEvent.createdAt (newestFirst UsageEvent.createdAt events) := by
  have hle : Std.Total fun row other : UsageEvent => other.createdAt ≤ row.createdAt :=
    ⟨fun row other => le_total other.createdAt row.createdAt⟩
  have htrans : IsTrans UsageEvent fun row other => other.createdAt ≤ row.createdAt :=
    ⟨fun _ _ _ hfirst hsecond => hsecond.trans hfirst⟩
  exact List.pairwise_insertionSort _ events

theorem rank_newestFirst (time : Time) (events : List UsageEvent) :
    rank UsageEvent.createdAt time (newestFirst UsageEvent.createdAt events) =
      rank UsageEvent.createdAt time events :=
  (List.perm_insertionSort _ events).countP_eq _

theorem length_newestFirst (events : List UsageEvent) :
    (newestFirst UsageEvent.createdAt events).length = events.length :=
  (List.perm_insertionSort _ events).length_eq

/-! ## Between two pages -/

/-- Whatever happens between two fetches, the events of the organization stay in their
order, and others come after them. -/
theorem usageOf_of_runs (orgId : Uuid) {start world : World} {trace : List Event}
    (hrun : Runs settings crypto start trace world) :
    (usageOf orgId start).map (lasting .usageEvents) <+:
      (usageOf orgId world).map (lasting .usageEvents) := by
  refine hrun.preserves (R := fun first second =>
    (usageOf orgId first).map (lasting .usageEvents) <+:
      (usageOf orgId second).map (lasting .usageEvents)) (fun _ => List.prefix_rfl) ?_ ?_
  · intro first second third hfirst hsecond
    exact hfirst.trans hsecond
  · intro middle event last hstep
    have hfilter : ∀ world : World, (usageOf orgId world).map (lasting .usageEvents) =
        ((world.db .usageEvents).map (lasting .usageEvents)).filter
          fun row => rowOrg .usageEvents row == some orgId := by
      intro world
      rw [List.filter_map]
      rfl
    rw [hfilter, hfilter]
    exact (prefix_of_step hstep rfl (by decide)).filter _

/-- The number of newer events, from the columns that last. -/
theorem rank_lasting (time : Time) (events : List UsageEvent) :
    rank UsageEvent.createdAt time (events.map (lasting .usageEvents)) =
      rank UsageEvent.createdAt time events :=
  List.countP_map

theorem rank_le_of_runs {start world : World} {trace : List Event}
    (hrun : Runs settings crypto start trace world) (time : Time) :
    rank UsageEvent.createdAt time (usageOf orgId start) ≤
      rank UsageEvent.createdAt time (usageOf orgId world) := by
  rw [← rank_lasting time (usageOf orgId start), ← rank_lasting time (usageOf orgId world)]
  exact (usageOf_of_runs orgId hrun).sublist.countP_le

theorem length_le_of_runs (orgId : Uuid) {start world : World} {trace : List Event}
    (hrun : Runs settings crypto start trace world) :
    (usageOf orgId start).length ≤ (usageOf orgId world).length := by
  have hprefix := (usageOf_of_runs orgId hrun).length_le
  rwa [List.length_map, List.length_map] at hprefix

/-- An event stays, apart from references to rows that may go. -/
theorem lasts_of_runs {start world : World} {trace : List Event}
    (hrun : Runs settings crypto start trace world) {event : UsageEvent}
    (hstored : event ∈ usageOf orgId start) :
    ∃ later ∈ usageOf orgId world, lasting .usageEvents later = lasting .usageEvents event :=
  List.mem_map.mp ((usageOf_of_runs _ hrun).subset (List.mem_map_of_mem hstored))

/-- Events that last in the same form were recorded at the same time, under the same id. -/
theorem eq_of_lasting_eq {event other : UsageEvent}
    (h : lasting .usageEvents event = lasting .usageEvents other) :
    event.id = other.id ∧ event.createdAt = other.createdAt := by
  cases event
  cases other
  injection h with hid _ _ _ _ _ _ _ _ _ _ htime
  exact ⟨hid, htime⟩

/-! ## The walk -/

/-- How far a walk has come: the last page is one of the present events, and the pages
before it were full. -/
structure Progress (orgId : Uuid) (size : ℕ) (earlier : List (List UsageEvent))
    (page : List UsageEvent) (world : World) : Prop where
  reads : page = pageOf size earlier.length
    (newestFirst UsageEvent.createdAt (usageOf orgId world))
  full : earlier.flatten.length = earlier.length * size
  within : earlier.length * size ≤ (usageOf orgId world).length

theorem Progress.length_page {earlier : List (List UsageEvent)} {page : List UsageEvent}
    {world : World} (h : Progress orgId size earlier page world) :
    page.length = min size ((usageOf orgId world).length - earlier.length * size) := by
  rw [h.reads, length_pageOf, length_newestFirst]

theorem progress_of_walk {start world : World} {earlier : List (List UsageEvent)}
    {page : List UsageEvent} (hwalk : Walk settings crypto orgId size start earlier page world) :
    Progress orgId size earlier page world := by
  induction hwalk with
  | @opened _ middle world page hrun hfetch =>
      obtain ⟨hdb, hpage⟩ := page_of_fetch hfetch
      refine ⟨?_, by simp, by simp⟩
      rw [usageOf, hdb]
      exact hpage
  | @next _ world middle world' earlier last page _ hfull hrun hfetch ih =>
      obtain ⟨hdb, hpage⟩ := page_of_fetch hfetch
      have hsame : usageOf orgId world' = usageOf orgId middle := by rw [usageOf, hdb]
      have hcount := length_le_of_runs orgId hrun
      have hlength := ih.length_page
      have hwithin := ih.within
      have hnumber : (earlier ++ [last]).length = earlier.length + 1 := by simp
      refine ⟨?_, ?_, ?_⟩
      · rw [hsame, hnumber]
        exact hpage
      · rw [List.flatten_append, List.length_append, ih.full, List.flatten_singleton, hnumber,
          Nat.add_mul]
        omega
      · rw [hsame, hnumber, Nat.add_mul]
        omega

/-- The event has been shown, or is further behind. -/
def Passed (orgId : Uuid) (size : ℕ) (event : UsageEvent) (pages : List (List UsageEvent))
    (world : World) : Prop :=
  (∃ shown ∈ pages.flatten, shown.createdAt = event.createdAt ∧
      ∃ later ∈ usageOf orgId world, lasting .usageEvents later = lasting .usageEvents shown) ∨
    pages.length * size ≤ rank UsageEvent.createdAt event.createdAt (usageOf orgId world)

/-- A fetch shows the event, if the pages before it have not and it is not behind. -/
theorem passed_of_fetch {world world' : World} {pages : List (List UsageEvent)}
    {page : List UsageEvent} {event : UsageEvent}
    (hpassed : Passed orgId size event pages world)
    (hstored : ∃ later ∈ usageOf orgId world,
      lasting .usageEvents later = lasting .usageEvents event)
    (h : Fetches settings crypto orgId size pages.length world page world') :
    Passed orgId size event (pages ++ [page]) world' := by
  obtain ⟨hdb, rfl⟩ := page_of_fetch h
  have hsame : usageOf orgId world' = usageOf orgId world := by rw [usageOf, hdb]
  unfold Passed
  rw [hsame, List.flatten_append, List.length_append, List.length_singleton]
  rcases hpassed with ⟨shown, hshown, hkept⟩ | hbehind
  · exact .inl ⟨shown, List.mem_append_left _ hshown, hkept⟩
  obtain ⟨later, hlater, hlasting⟩ := hstored
  obtain ⟨_, htime⟩ := eq_of_lasting_eq hlasting
  rcases Nat.lt_or_ge (rank UsageEvent.createdAt event.createdAt (usageOf orgId world))
    ((pages.length + 1) * size) with hon | hafter
  · rw [← htime, ← rank_newestFirst] at hbehind hon
    obtain ⟨shown, hshown, hkey⟩ := mem_pageOf (descending_newestFirst _)
      (mem_newestFirst.mpr hlater) hbehind hon
    refine .inl ⟨shown, List.mem_append_right _ ?_, hkey.trans htime, shown, ?_, rfl⟩
    · rw [List.flatten_singleton]
      exact hshown
    · exact mem_newestFirst.mp (List.mem_of_mem_drop (List.mem_of_mem_take hshown))
  · exact .inr hafter

/-- New events only move an event further behind. -/
theorem passed_of_runs {world world' : World} {trace : List Event} {pages : List (List UsageEvent)}
    {event : UsageEvent} (hpassed : Passed orgId size event pages world)
    (hrun : Runs settings crypto world trace world') : Passed orgId size event pages world' := by
  rcases hpassed with ⟨shown, hshown, htime, later, hlater, hlasting⟩ | hbehind
  · obtain ⟨latest, hlatest, hsame⟩ := lasts_of_runs hrun hlater
    exact .inl ⟨shown, hshown, htime, latest, hlatest, hsame.trans hlasting⟩
  · exact .inr (hbehind.trans (rank_le_of_runs hrun event.createdAt))

theorem passed_of_walk {start world : World} {earlier : List (List UsageEvent)}
    {page : List UsageEvent} (hwalk : Walk settings crypto orgId size start earlier page world)
    {event : UsageEvent} (hstored : event ∈ usageOf orgId start) :
    Passed orgId size event (earlier ++ [page]) world ∧
      ∃ later ∈ usageOf orgId world, lasting .usageEvents later = lasting .usageEvents event := by
  induction hwalk with
  | @opened _ middle world page hrun hfetch =>
      have hlasts := lasts_of_runs hrun hstored
      have hnone : Passed orgId size event [] middle := .inr (by simp)
      refine ⟨passed_of_fetch hnone hlasts hfetch, ?_⟩
      rw [usageOf, (page_of_fetch hfetch).1]
      exact hlasts
  | @next _ world middle world' earlier last page _ _ hrun hfetch ih =>
      obtain ⟨hpassed, later, hlater, hlasting⟩ := ih
      obtain ⟨latest, hlatest, hsame⟩ := lasts_of_runs hrun hlater
      have hnumber : (earlier ++ [last]).length = earlier.length + 1 := by simp
      refine ⟨passed_of_fetch (passed_of_runs hpassed hrun) ⟨latest, hlatest, hsame.trans hlasting⟩
        (hnumber ▸ hfetch), latest, ?_, hsame.trans hlasting⟩
      rw [usageOf, (page_of_fetch hfetch).1]
      exact hlatest

/-- A user who reads the ledger to its end, page by page and while the platform goes
on, is shown every event that was there at the beginning and whose time no other event
has; and is shown as many rows as there are events at the end. -/
theorem walk_showsLedger {start world : World} {earlier : List (List UsageEvent)}
    {page : List UsageEvent} (hwalk : Walk settings crypto orgId size start earlier page world)
    (hlast : page.length < size) :
    (∀ event ∈ usageOf orgId start,
      (∀ other ∈ usageOf orgId world, other.createdAt = event.createdAt → other.id = event.id) →
        ∃ shown ∈ (earlier ++ [page]).flatten, shown.id = event.id) ∧
      (earlier ++ [page]).flatten.length = (usageOf orgId world).length := by
  have hprogress := progress_of_walk hwalk
  have hlength := hprogress.length_page
  have hwithin := hprogress.within
  refine ⟨fun event hstored hunique => ?_, ?_⟩
  · obtain ⟨hpassed, last, hstays, hlasting⟩ := passed_of_walk hwalk hstored
    rcases hpassed with ⟨shown, hshown, htime, later, hlater, hsame⟩ | hbehind
    · obtain ⟨hid, htime'⟩ := eq_of_lasting_eq hsame
      exact ⟨shown, hshown, hid.symm.trans (hunique later hlater (htime'.trans htime))⟩
    · -- then the last page would be full
      have hrank := rank_lt_length UsageEvent.createdAt hstays
      rw [(eq_of_lasting_eq hlasting).2] at hrank
      rw [List.length_append, List.length_singleton, Nat.add_mul] at hbehind
      omega
  · rw [List.flatten_append, List.length_append, hprogress.full, List.flatten_singleton]
    omega

/-! ## A ledger of two events -/

/-- The step of a user who fetches a page. -/
def fetching (size number : ℕ) : Action := .serve 1 2 false (.usageEvents size (number * size))

theorem fetches_of_perform {number : ℕ} {now : Time} {world world' : World} {event : Event}
    (h : perform settings crypto now world (fetching size number) = some (event, world')) :
    ∃ page, Fetches settings crypto 1 size number world page world' := by
  have hstep := step_of_perform h
  obtain ⟨response, rfl⟩ := event_of_serve h
  cases hstep with
  | served hfresh hrun =>
      have hwhole := hrun
      unfold serve at hrun
      rw [Program.runs_bind] at hrun
      obtain ⟨_, _, _, hhandle⟩ := hrun
      unfold handle rowsOf at hhandle
      obtain ⟨page, _, rfl⟩ := Program.runs_map.mp hhandle
      exact ⟨page, 2, false, now, .served hfresh hwhole⟩

/-- A question that is answered, and so charged for. -/
def answeredQuestion (turn : ChatTurn) (time : Time) (draw : AnswerDraw) : List (Time × Action) :=
  [(time, .serve 1 2 false (.chat turn.conversationId turn.question)),
    (time + 1, .ask turn (draw.messageId + 1)),
    (time + 2, .answer turn flatEngine
      (fun _ _ => .ok (["No.".toList], ⟨⟨5, 2⟩, "stub".toList, "stub".toList⟩)) draw)]

/-- An administrator signs up, opens two conversations and asks in the first. -/
def firstQuestion : List (Time × Action) :=
  [(0, .auth (.signup ⟨"A".toList, "a@x".toList, [], none⟩ [] ⟨1, 2, []⟩ ⟨"first".toList, 3⟩)),
    (1, .serve 1 2 false (.createConversation none 9)),
    (2, .serve 1 2 false (.createConversation none 10))] ++
    answeredQuestion ⟨1, 2, 9, [], "Why?".toList⟩ 3 ⟨41, 31⟩

def secondQuestion : List (Time × Action) :=
  answeredQuestion ⟨1, 2, 10, [], "Why?".toList⟩ 7 ⟨43, 32⟩

/-- The events of the organization, by id and time. -/
def ledger (world : World) : List (Uuid × Time) :=
  (usageOf 1 world).map fun event => (event.id, event.createdAt)

/-- While the pages are read one event at a time, the second event pushes the first to
the second page, so that it is shown again; the second event is not shown. -/
theorem walk_showsLedger_questions : ∃ start world earlier page,
    Walk wordSettings sampleCrypto 1 1 start earlier page world ∧
    ledger start = [(31, 5)] ∧ ledger world = [(31, 5), (32, 9)] ∧
    (∃ shown ∈ (earlier ++ [page]).flatten, shown.id = 31) ∧
    (earlier ++ [page]).flatten.length = 2 := by
  have hevaluate : ((performAll wordSettings sampleCrypto emptyWorld firstQuestion).bind fun setup =>
      (perform wordSettings sampleCrypto 6 setup.2 (fetching 1 0)).bind fun first =>
        (performAll wordSettings sampleCrypto first.2 secondQuestion).bind fun grown =>
          (perform wordSettings sampleCrypto 10 grown.2 (fetching 1 1)).bind fun second =>
            (perform wordSettings sampleCrypto 11 second.2 (fetching 1 2)).map fun third =>
              [ledger setup.2, ledger first.2, ledger second.2, ledger third.2]) =
      some [[(31, 5)], [(31, 5)], [(31, 5), (32, 9)], [(31, 5), (32, 9)]] := by decide +kernel
  obtain ⟨⟨_, start⟩, _, hrest⟩ := Option.bind_eq_some_iff.mp hevaluate
  obtain ⟨⟨_, opened⟩, hopened, hrest⟩ := Option.bind_eq_some_iff.mp hrest
  obtain ⟨⟨_, grown⟩, hgrown, hrest⟩ := Option.bind_eq_some_iff.mp hrest
  obtain ⟨⟨_, next⟩, hnext, hrest⟩ := Option.bind_eq_some_iff.mp hrest
  obtain ⟨⟨_, world⟩, hlast, hfacts⟩ := Option.map_eq_some_iff.mp hrest
  obtain ⟨hstart, hfirst, hsecond, hworld⟩ : _ ∧ _ ∧ _ ∧ _ := by
    simpa only [List.cons.injEq, and_true] using hfacts
  have hcount : ∀ world entries, ledger world = entries →
      (usageOf 1 world).length = entries.length := by
    rintro world _ rfl
    exact (List.length_map _).symm
  obtain ⟨pageOne, hone⟩ := fetches_of_perform hopened
  obtain ⟨pageTwo, htwo⟩ := fetches_of_perform hnext
  obtain ⟨pageThree, hthree⟩ := fetches_of_perform hlast
  have hwalkOne : Walk wordSettings sampleCrypto 1 1 start [] pageOne opened := .opened .nil hone
  have hlengthOne := (progress_of_walk hwalkOne).length_page
  rw [hcount _ _ hfirst] at hlengthOne
  have hwalkTwo : Walk wordSettings sampleCrypto 1 1 start [pageOne] pageTwo next :=
    .next hwalkOne hlengthOne.ge (runs_of_performAll hgrown) htwo
  have hlengthTwo := (progress_of_walk hwalkTwo).length_page
  rw [hcount _ _ hsecond] at hlengthTwo
  have hwalkThree : Walk wordSettings sampleCrypto 1 1 start [pageOne, pageTwo] pageThree world :=
    .next hwalkTwo hlengthTwo.ge .nil hthree
  have hlengthThree := (progress_of_walk hwalkThree).length_page
  rw [hcount _ _ hworld] at hlengthThree
  obtain ⟨hshows, hnumber⟩ := walk_showsLedger hwalkThree (by simp [hlengthThree])
  refine ⟨start, world, _, _, hwalkThree, hstart, hworld, ?_, hnumber.trans (hcount _ _ hworld)⟩
  obtain ⟨event, hevent, hentry⟩ := List.mem_map.mp
    (show (31, 5) ∈ ledger start by rw [hstart]; exact List.mem_singleton_self _)
  obtain ⟨hid, htime⟩ := Prod.mk.inj hentry
  obtain ⟨shown, hshown, hsame⟩ := hshows event hevent fun other hother hsame => by
    have hlisted : (other.id, other.createdAt) ∈ ledger world :=
      List.mem_map_of_mem (f := fun event : UsageEvent => (event.id, event.createdAt)) hother
    rw [hworld, hsame, htime] at hlisted
    rw [hid]
    simpa using hlisted
  exact ⟨shown, hshown, hsame.trans hid⟩

end Platform
