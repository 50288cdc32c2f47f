import CodeSearch.Proofs.Session.Move

/-! # What a move leaves alone

A move changes the task that makes it, may start others, and may tell a pass of a file that was not
loaded. The settings, the embedder, the files and the time stay. The snapshot changes in one of four
ways, and each of them names the task that is responsible.
-/

namespace CodeSearch

variable {α : Type} [Scalar α]

/-- A pass that was told of a file. -/
def Pass.told (pass : Pass α) (message : String) : Pass α :=
  { pass with errors := pass.errors ++ [message] }

namespace Session

theorem task?_setTask (session : Session α) (id other : TaskId) (task : Task α)
    (present : id < session.tasks.length) :
    (session.setTask id task).task? other =
      if id = other then some task else session.task? other := by
  simp only [task?, setTask, List.getElem?_set]
  by_cases same : id = other
  · subst same
    simp [present]
  · simp [same]

theorem task?_start (session : Session α) (tasks : List (Task α)) (id : TaskId) :
    (session.start tasks).task? id =
      if id < session.tasks.length then session.task? id
      else tasks[id - session.tasks.length]? := by
  simp only [task?, start, List.getElem?_append]

theorem lt_of_task? {session : Session α} {id : TaskId} {task : Task α}
    (stands : session.task? id = some task) : id < session.tasks.length :=
  (List.getElem?_eq_some_iff.mp stands).1

/-- Where a task that stands behind a step of the task `id` comes from. -/
inductive Origin (session : Session α) (id : TaskId) : TaskId → Task α → Prop where
  | kept (other : TaskId) (task : Task α) (different : other ≠ id)
      (stood : session.task? other = some task) : Origin session id other task
  | told (other : TaskId) (pass : Pass α) (message : String) (different : other ≠ id)
      (stood : session.task? other = some (.pass pass)) :
      Origin session id other (.pass (pass.told message))
  | passStarted (other : TaskId) (path : Argument String) (root : String)
      (accepted : path.projectPath = .ok root)
      (caller : ∃ point, session.task? id = some (.call point))
      (new : session.task? other = none) :
      Origin session id other (.pass (.start session.settings root))
  | loadStarted (other : TaskId) (pass : Pass α) (path : String) (new : session.task? other = none)
      (stood : session.task? id = some (.pass pass)) :
      Origin session id other (.load id pass.root path (.running .sizing))
  | call (point next : CallPoint α) (shared : Session α)
      (stood : session.task? id = some (.call point))
      (move : CallMove session id point shared next) : Origin session id id (.call next)
  | pass (pass next : Pass α) (shared : Session α) (stood : session.task? id = some (.pass pass))
      (move : PassMove session id pass shared next) : Origin session id id (.pass next)
  | looks (owner : TaskId) (root path : String) (point next : LoadPoint)
      (stood : session.task? id = some (.load owner root path (.running point)))
      (step : Loading.step session.settings session.files session.now root path point =
        .next next) :
      Origin session id id (.load owner root path (.running next))
  | ends (owner : TaskId) (root path : String) (point : LoadPoint) (result : LoadResult α)
      (stood : session.task? id = some (.load owner root path (.running point)))
      (step : Loading.step session.settings session.files session.now root path point =
        .last result) :
      Origin session id id (.load owner root path (.ended result))

/-- What calls and passes do not change. -/
structure SameWorld (session next : Session α) : Prop where
  settings : next.settings = session.settings
  embedder : next.embedder = session.embedder
  files : next.files = session.files
  now : next.now = session.now

theorem SameWorld.refl (session : Session α) : SameWorld session session := ⟨rfl, rfl, rfl, rfl⟩

theorem SameWorld.trans {first second third : Session α} (one : SameWorld first second)
    (two : SameWorld second third) : SameWorld first third :=
  ⟨two.settings.trans one.settings, two.embedder.trans one.embedder, two.files.trans one.files,
    two.now.trans one.now⟩

/-- A search changes nothing but the cache of the snapshot. -/
theorem search_cases (session : Session α) (query : String) (options : SearchOptions α) :
    (session.search query options).2 = session ∨
      ∃ snapshot, session.snapshot = some snapshot ∧
        (session.search query options).2 =
          { session with
            snapshot := some
              { snapshot with
                cache := (snapshot.cache.get session.now (options.cacheKey query)).2.put
                  session.now (options.cacheKey query)
                  (rank session.settings session.embedder query options
                    snapshot.embeddings.values) } } := by
  unfold search
  split
  · exact .inl rfl
  · next snapshot current =>
    dsimp only
    split
    · split
      · exact .inl rfl
      · next cache missing =>
        refine .inr ⟨snapshot, current, ?_⟩
        rw [missing]
    · exact .inl rfl

theorem search_world (session : Session α) (query : String) (options : SearchOptions α) :
    SameWorld session (session.search query options).2 := by
  rcases session.search_cases query options with same | ⟨snapshot, _, same⟩ <;> rw [same]
  · exact .refl session
  · exact ⟨rfl, rfl, rfl, rfl⟩

private theorem clear_world (session : Session α) (root : Option String) :
    SameWorld session (session.clear root) := by
  cases root <;> exact ⟨rfl, rfl, rfl, rfl⟩

theorem IndexMove.world {session shared : Session α} {root : String} {force : Bool}
    {start : IndexStart} (met : IndexMove session root force shared start) :
    SameWorld session shared := by
  cases met <;> exact ⟨rfl, rfl, rfl, rfl⟩

theorem CallMove.world {session shared : Session α} {id : TaskId} {point next : CallPoint α}
    (move : CallMove session id point shared next) : SameWorld session shared := by
  cases move with
  | quiet => exact .refl session
  | answered _ _ _ _ _ _ met => exact met.world
  | indexes _ _ _ _ _ _ met => exact met.world
  | searched _ _ query options => exact session.search_world query options
  | contextReady => exact ⟨rfl, rfl, rfl, rfl⟩
  | contextServed _ _ _ _ _ _ _ met =>
    have world := met.world
    exact ⟨world.settings, world.embedder, world.files, world.now⟩
  | contextWaits _ _ _ _ _ _ _ met =>
    have world := met.world
    exact ⟨world.settings, world.embedder, world.files, world.now⟩
  | cleared _ root => exact session.clear_world root
  | queued => exact ⟨rfl, rfl, rfl, rfl⟩
  | gaveUp => exact ⟨rfl, rfl, rfl, rfl⟩
  | stored => exact ⟨rfl, rfl, rfl, rfl⟩
  | finds wish => exact session.search_world wish.query _

theorem PassMove.world {session shared : Session α} {id : TaskId} {pass next : Pass α}
    (move : PassMove session id pass shared next) : SameWorld session shared := by
  cases move <;> exact ⟨rfl, rfl, rfl, rfl⟩

private theorem tellOwner_world (session : Session α) (owner : TaskId) (message : String) :
    SameWorld session (session.tellOwner owner message) := by
  simp only [tellOwner]
  split <;> exact ⟨rfl, rfl, rfl, rfl⟩

theorem Move.world {session next : Session α} {id : TaskId} (move : Move session id next) :
    SameWorld session next := by
  cases move with
  | call _ _ _ _ move => have world := move.world; exact ⟨world.1, world.2, world.3, world.4⟩
  | pass _ _ _ _ move => have world := move.world; exact ⟨world.1, world.2, world.3, world.4⟩
  | looks => exact ⟨rfl, rfl, rfl, rfl⟩
  | ends => exact ⟨rfl, rfl, rfl, rfl⟩
  | fails owner root path _ message =>
    have set : SameWorld session
        (session.setTask id (.load owner root path (.ended (.failed message)))) :=
      ⟨rfl, rfl, rfl, rfl⟩
    exact set.trans (tellOwner_world _ owner message)

/-! ## Tasks elsewhere -/

/-- What a search shares has the same tasks. -/
theorem search_tasks (session : Session α) (query : String) (options : SearchOptions α) :
    (session.search query options).2.tasks = session.tasks := by
  rcases session.search_cases query options with same | ⟨snapshot, _, same⟩ <;> rw [same]

theorem IndexMove.tasks {session shared : Session α} {root : String} {force : Bool}
    {start : IndexStart} (met : IndexMove session root force shared start) :
    shared.tasks = session.tasks ∨
      shared.tasks = session.tasks ++ [.pass (.start session.settings root)] := by
  cases met with
  | served => exact .inl rfl
  | joined => exact .inl rfl
  | started => exact .inr rfl

theorem contextWish_root {query path : Argument String} {limit : Argument Int} {wish : ContextWish}
    (accepted : contextWish query path limit = .ok wish) : path.projectPath = .ok wish.root := by
  simp only [contextWish, bind, Except.bind] at accepted
  split at accepted
  · cases accepted
  · split at accepted
    · cases accepted
    · split at accepted
      · cases accepted
      · next root known =>
        cases accepted
        exact known

/-- A call starts a pass over a project that it was given, or nothing. -/
theorem CallMove.tasks {session shared : Session α} {id : TaskId} {point next : CallPoint α}
    (move : CallMove session id point shared next) :
    shared.tasks = session.tasks ∨
      ∃ (path : Argument String) (root : String), path.projectPath = .ok root ∧
        shared.tasks = session.tasks ++ [.pass (.start session.settings root)] := by
  cases move with
  | quiet => exact .inl rfl
  | answered path _ root _ _ accepted met =>
    exact met.tasks.imp_right fun started => ⟨path, root, accepted, started⟩
  | indexes path _ root _ _ accepted met =>
    exact met.tasks.imp_right fun started => ⟨path, root, accepted, started⟩
  | searched _ _ query options => exact .inl (session.search_tasks query options)
  | contextReady => exact .inl rfl
  | contextServed _ path _ wish _ _ accepted met =>
    exact met.tasks.imp_right fun started => ⟨path, wish.root, contextWish_root accepted, started⟩
  | contextWaits _ path _ wish _ _ accepted met =>
    exact met.tasks.imp_right fun started => ⟨path, wish.root, contextWish_root accepted, started⟩
  | cleared _ root => cases root <;> exact .inl rfl
  | queued => exact .inl rfl
  | gaveUp => exact .inl rfl
  | stored => exact .inl rfl
  | finds wish => exact .inl (session.search_tasks wish.query _)

/-- A pass starts the loads of a batch or nothing. -/
theorem PassMove.tasks {session shared : Session α} {id : TaskId} {pass next : Pass α}
    (move : PassMove session id pass shared next) :
    ∃ paths : List String, shared.tasks =
      session.tasks ++ paths.map fun path => .load id pass.root path (.running .sizing) := by
  cases move with
  | loads paths => exact ⟨_, rfl⟩
  | quiet => exact ⟨[], by simp⟩
  | fails => exact ⟨[], by simp⟩
  | queued => exact ⟨[], by simp [requestLock]⟩
  | swaps => exact ⟨[], by simp⟩
  | discards => exact ⟨[], by simp⟩

/-- Behind started tasks, a task is one that was there before or one of those. -/
theorem task?_append (session shared : Session α) (started : List (Task α)) (id : TaskId)
    (tasks : shared.tasks = session.tasks ++ started) :
    shared.task? id = session.task? id ∨
      session.task? id = none ∧ ∃ task ∈ started, shared.task? id = some task := by
  simp only [task?, tasks, List.getElem?_append]
  split
  · exact .inl rfl
  · next beyond =>
    have absent : session.tasks[id]? = none := List.getElem?_eq_none (Nat.le_of_not_lt beyond)
    rw [absent]
    cases found : started[id - session.tasks.length]? with
    | none => exact .inl rfl
    | some task => exact .inr ⟨rfl, task, List.mem_of_getElem? found, rfl⟩

/-- A call stands where its move has put it. -/
theorem CallMove.task?_self {session shared : Session α} {id : TaskId} {point next : CallPoint α}
    (move : CallMove session id point shared next)
    (stands : session.task? id = some (.call point)) :
    (shared.setCall id next).task? id = some (.call next) := by
  have longer : session.tasks.length ≤ shared.tasks.length := by
    rcases move.tasks with same | ⟨_, _, _, same⟩ <;> simp [same]
  rw [setCall, task?_setTask _ _ _ _ (Nat.lt_of_lt_of_le (lt_of_task? stands) longer), if_pos rfl]

/-- A pass stands where its move has put it. -/
theorem PassMove.task?_self {session shared : Session α} {id : TaskId} {pass next : Pass α}
    (move : PassMove session id pass shared next)
    (stands : session.task? id = some (.pass pass)) :
    (shared.setPass id next).task? id = some (.pass next) := by
  obtain ⟨paths, same⟩ := move.tasks
  have longer : session.tasks.length ≤ shared.tasks.length := by simp [same]
  rw [setPass, task?_setTask _ _ _ _ (Nat.lt_of_lt_of_le (lt_of_task? stands) longer), if_pos rfl]

/-- Telling its owner leaves a load where it stands. -/
theorem task?_tellOwner_load (session : Session α) (id owner told : TaskId)
    (root path message : String) (state : LoadState α) (stands : session.task? id = some (.load owner root path state)) :
    (session.tellOwner told message).task? id = some (.load owner root path state) := by
  simp only [tellOwner]
  split
  · next pass stood =>
    have apart : ¬ told = id := by
      rintro rfl
      rw [stands] at stood
      cases stood
    rw [setPass, task?_setTask _ _ _ _ (lt_of_task? stood), if_neg apart, stands]
  · exact stands

/-- The moves of a task that is a call are moves of calls. -/
theorem Move.of_call {session next : Session α} {id : TaskId} {point : CallPoint α}
    (move : Move session id next) (stands : session.task? id = some (.call point)) :
    ∃ after shared, CallMove session id point shared after ∧ next = shared.setCall id after := by
  cases move with
  | call before after shared stood move =>
    rw [stands] at stood
    cases stood
    exact ⟨after, shared, move, rfl⟩
  | pass _ _ _ stood => rw [stands] at stood; cases stood
  | looks _ _ _ _ _ stood => rw [stands] at stood; cases stood
  | ends _ _ _ _ _ stood => rw [stands] at stood; cases stood
  | fails _ _ _ _ _ stood => rw [stands] at stood; cases stood

/-- A pass that stands where a task has moved has made a move of a pass. -/
theorem Move.pass_own {session next : Session α} {id : TaskId} {pass : Pass α}
    (move : Move session id next) (stands : next.task? id = some (.pass pass)) :
    ∃ before shared, session.task? id = some (.pass before) ∧
      PassMove session id before shared pass ∧ next = shared.setPass id pass := by
  cases move with
  | call point after shared stood move =>
    rw [move.task?_self stood] at stands
    cases stands
  | pass before after shared stood move =>
    rw [move.task?_self stood] at stands
    cases stands
    exact ⟨before, shared, stood, move, rfl⟩
  | looks owner root path point after stood =>
    rw [task?_setTask _ _ _ _ (lt_of_task? stood), if_pos rfl] at stands
    cases stands
  | ends owner root path point result stood =>
    rw [task?_setTask _ _ _ _ (lt_of_task? stood), if_pos rfl] at stands
    cases stands
  | fails owner root path point message stood =>
    rw [task?_tellOwner_load _ _ owner _ root path _ (.ended (.failed message))
      (by rw [task?_setTask _ _ _ _ (lt_of_task? stood), if_pos rfl])] at stands
    cases stands

private theorem elsewhere_origin {session next : Session α} {id other : TaskId} {task : Task α}
    (move : Move session id next) (different : other ≠ id) (stands : next.task? other = some task) :
    Origin session id other task := by
  have apart : ¬ id = other := fun same => different same.symm
  cases move with
  | call point after shared stood move =>
    have longer : session.tasks.length ≤ shared.tasks.length := by
      rcases move.tasks with same | ⟨_, _, _, same⟩ <;> simp [same]
    rw [setCall, task?_setTask _ _ _ _ (Nat.lt_of_lt_of_le (lt_of_task? stood) longer),
      if_neg apart] at stands
    rcases move.tasks with same | ⟨path, root, accepted, same⟩
    · exact .kept other task different (by simpa only [task?, same] using stands)
    · rcases task?_append session shared _ other same with kept | ⟨new, started, member, found⟩
      · exact .kept other task different (kept ▸ stands)
      · rw [found, List.mem_singleton.mp member] at stands
        cases stands
        exact .passStarted other path root accepted ⟨point, stood⟩ new
  | pass pass after shared stood move =>
    obtain ⟨paths, same⟩ := move.tasks
    have longer : session.tasks.length ≤ shared.tasks.length := by simp [same]
    rw [setPass, task?_setTask _ _ _ _ (Nat.lt_of_lt_of_le (lt_of_task? stood) longer),
      if_neg apart] at stands
    rcases task?_append session shared _ other same with kept | ⟨new, started, member, found⟩
    · exact .kept other task different (kept ▸ stands)
    · obtain ⟨path, _, rfl⟩ := List.mem_map.mp member
      rw [found] at stands
      cases stands
      exact .loadStarted other pass path new stood
  | looks owner root path point after stood step =>
    rw [task?_setTask _ _ _ _ (lt_of_task? stood), if_neg apart] at stands
    exact .kept other task different stands
  | ends owner root path point result stood step quiet =>
    rw [task?_setTask _ _ _ _ (lt_of_task? stood), if_neg apart] at stands
    exact .kept other task different stands
  | fails owner root path point message stood step =>
    have kept : (session.setTask id (.load owner root path (.ended (.failed message)))).task? other =
        session.task? other := by
      rw [task?_setTask _ _ _ _ (lt_of_task? stood), if_neg apart]
    simp only [tellOwner] at stands
    split at stands
    · next pass stoodAt =>
      rw [setPass, task?_setTask _ _ _ _ (lt_of_task? stoodAt)] at stands
      split at stands
      · next same =>
        subst same
        cases stands
        exact .told owner pass message different (kept ▸ stoodAt)
      · exact .kept other task different (kept ▸ stands)
    · exact .kept other task different (kept ▸ stands)

/-- Every task that stands behind a step has one of the origins. -/
theorem Move.origin {session next : Session α} {id other : TaskId} {task : Task α}
    (move : Move session id next) (stands : next.task? other = some task) :
    Origin session id other task := by
  by_cases own : other = id
  · subst own
    cases move with
    | call point after shared stood move =>
      rw [move.task?_self stood] at stands
      cases stands
      exact .call point after shared stood move
    | pass pass after shared stood move =>
      rw [move.task?_self stood] at stands
      cases stands
      exact .pass pass after shared stood move
    | looks owner root path point after stood step =>
      rw [task?_setTask _ _ _ _ (lt_of_task? stood), if_pos rfl] at stands
      cases stands
      exact .looks owner root path point after stood step
    | ends owner root path point result stood step quiet =>
      rw [task?_setTask _ _ _ _ (lt_of_task? stood), if_pos rfl] at stands
      cases stands
      exact .ends owner root path point result stood step
    | fails owner root path point message stood step =>
      rw [task?_tellOwner_load _ _ owner _ root path _ (.ended (.failed message))
        (by rw [task?_setTask _ _ _ _ (lt_of_task? stood), if_pos rfl])] at stands
      cases stands
      exact .ends owner root path point _ stood step
  · exact elsewhere_origin move own stands

/-- Where a pass that stands behind a step of the task `id` comes from. -/
inductive PassOrigin (session next : Session α) (id other : TaskId) : Pass α → Prop where
  | kept (pass : Pass α) (different : other ≠ id)
      (stood : session.task? other = some (.pass pass)) : PassOrigin session next id other pass
  | told (pass : Pass α) (message : String) (different : other ≠ id)
      (stood : session.task? other = some (.pass pass)) :
      PassOrigin session next id other (pass.told message)
  | started (path : Argument String) (root : String) (accepted : path.projectPath = .ok root)
      (caller : ∃ point, session.task? id = some (.call point))
      (new : session.task? other = none) :
      PassOrigin session next id other (.start session.settings root)
  | moved (before after : Pass α) (shared : Session α) (own : other = id)
      (stood : session.task? id = some (.pass before))
      (move : PassMove session id before shared after) (set : next = shared.setPass id after) :
      PassOrigin session next id other after

theorem Move.origin_pass {session next : Session α} {id other : TaskId} {pass : Pass α}
    (move : Move session id next) (stands : next.task? other = some (.pass pass)) :
    PassOrigin session next id other pass := by
  generalize place : Task.pass pass = task at stands
  cases move.origin stands with
  | kept _ _ different stood => exact .kept pass different (place ▸ stood)
  | told _ before message different stood =>
    cases place
    exact .told before message different stood
  | passStarted _ path root accepted caller new =>
    cases place
    exact .started path root accepted caller new
  | pass =>
    cases place
    obtain ⟨before, shared, stood, move, set⟩ := move.pass_own stands
    exact .moved before pass shared rfl stood move set
  | loadStarted => cases place
  | call => cases place
  | looks => cases place
  | ends => cases place

/-- Where a load that stands behind a step of the task `id` comes from. -/
inductive LoadOrigin (session : Session α) (id load owner : TaskId) (root path : String) :
    LoadState α → Prop where
  | kept (state : LoadState α) (different : load ≠ id)
      (stood : session.task? load = some (.load owner root path state)) :
      LoadOrigin session id load owner root path state
  | started (pass : Pass α) (own : owner = id) (project : root = pass.root)
      (new : session.task? load = none) (stood : session.task? id = some (.pass pass)) :
      LoadOrigin session id load owner root path (.running .sizing)
  | looks (point next : LoadPoint) (own : load = id)
      (stood : session.task? load = some (.load owner root path (.running point)))
      (step : Loading.step session.settings session.files session.now root path point =
        .next next) : LoadOrigin session id load owner root path (.running next)
  | ends (point : LoadPoint) (result : LoadResult α) (own : load = id)
      (stood : session.task? load = some (.load owner root path (.running point)))
      (step : Loading.step session.settings session.files session.now root path point =
        .last result) : LoadOrigin session id load owner root path (.ended result)

theorem Move.origin_load {session next : Session α} {id load owner : TaskId} {root path : String}
    {state : LoadState α} (move : Move session id next)
    (stands : next.task? load = some (.load owner root path state)) :
    LoadOrigin session id load owner root path state := by
  generalize place : Task.load owner root path state = task at stands
  cases move.origin stands with
  | kept _ _ different stood => exact .kept state different (place ▸ stood)
  | loadStarted _ pass _ new stood =>
    cases place
    exact .started pass rfl rfl new stood
  | looks _ _ _ point after stood step =>
    cases place
    exact .looks point after rfl stood step
  | ends _ _ _ point result stood step =>
    cases place
    exact .ends point result rfl stood step
  | told => cases place
  | passStarted => cases place
  | call => cases place
  | pass => cases place

/-- A call that stands behind a step has made the step, or it stood there before. -/
theorem Move.call_origin {session next : Session α} {id other : TaskId} {point : CallPoint α}
    (move : Move session id next) (stands : next.task? other = some (.call point)) :
    other ≠ id ∧ session.task? other = some (.call point) ∨
      other = id ∧ ∃ before shared, session.task? id = some (.call before) ∧
        CallMove session id before shared point ∧ next = shared.setCall id point := by
  generalize place : Task.call point = task at stands
  cases move.origin stands with
  | kept _ _ different stood => exact .inl ⟨different, place ▸ stood⟩
  | call before _ _ stood =>
    obtain ⟨after, shared, step, rfl⟩ := move.of_call stood
    cases (step.task?_self stood).symm.trans stands
    cases place
    exact .inr ⟨rfl, before, shared, stood, step, rfl⟩
  | told => cases place
  | passStarted => cases place
  | loadStarted => cases place
  | pass => cases place
  | looks => cases place
  | ends => cases place

/-- A step of a task makes no request. -/
theorem Move.request_made {session next : Session α} {id other : TaskId} {request : Request α}
    (move : Move session id next) (stands : next.task? other = some (.call (.made request))) :
    session.task? other = some (.call (.made request)) := by
  rcases move.call_origin stands with ⟨-, stood⟩ | ⟨-, before, shared, -, step, -⟩
  · exact stood
  · cases step with
    | quiet _ _ step => cases step

end Session

end CodeSearch
