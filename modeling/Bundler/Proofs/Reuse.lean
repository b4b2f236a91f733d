import Bundler.Proofs.Bundle

/-!
# A resolver that is used again

A resolver can be used again and again, for other paths, after a failure, and when the files have
changed. Whatever a call does, it leaves all that it entered, and what it inlines is in order, also
when it fails below some modules and behind others that it inlined (`Failure.inOrder`,
`Resolver.Call.exists_adds`). So the resolver stays consistent from call to call
(`Resolver.consistent_afterCalls`), and no module is inlined before what it imports
(`Resolver.consistent_through_calls`).
-/

namespace Bundler

namespace Resolver

/-- What is done with a resolver from outside. -/
inductive Call where
  | resolve (importer : Option Path) (paths : List Path)
  | resolveEntry (entry : Path)
  | visit (path : Path)

/-- The resolver after a call, whatever the result. -/
def Call.run (space : Workspace) (extension : String) (resolver : Resolver) : Call → Resolver
  | resolve importer paths => (resolver.resolve space extension importer paths).1
  | resolveEntry entry => (resolver.resolveEntry space extension entry).1
  | visit path => resolver.visit path

/-- A new resolver after the calls, each of which finds the files of a workspace of its own. -/
def afterCalls (extension : String) (calls : List (Workspace × Call)) : Resolver :=
  calls.foldl (fun resolver (space, call) => call.run space extension resolver) {}

/-- Nothing is in progress, and what was inlined was inlined once and is visited. -/
structure Consistent (resolver : Resolver) : Prop where
  idle : resolver.inProgress = []
  nodup : resolver.order.Nodup
  order_subset : resolver.order ⊆ resolver.visited

/-- A call adds modules to a resolver, in this order: each is loaded from the workspace, was not
visited before its turn, and comes when all that it imports is visited. Nothing else is visited but
a path that the call marks so, and nothing stays in progress. -/
structure Call.Adds (space : Workspace) (extension : String) (call : Call)
    (before after : Resolver) (modules : List Module) : Prop where
  inProgress_eq : after.inProgress = before.inProgress
  order_eq : after.order = before.order ++ modules.map (·.path)
  mem_visited : ∀ path, path ∈ after.visited ↔
    path ∈ before.visited ∨ path ∈ modules.map (·.path) ∨ call = .visit path
  loaded : ∀ module ∈ modules, space.load extension none module.path = .ok module
  inOrder : InOrder before.visited modules

section
variable {space : Workspace} {extension : String} {resolver before after : Resolver} {call : Call}
  {modules : List Module}

/-- An entry that cannot be loaded changes nothing. -/
theorem resolveEntry_of_load_error {entry : Path} {error : Error}
    (hl : space.load extension none entry = .error error) :
    resolver.resolveEntry space extension entry = (resolver, .error error) := by
  rw [Resolver.resolveEntry, hl]

/-- An entry that is loaded is entered for the walk over its imports, and left however this ends. -/
theorem resolveEntry_of_load {entry : Path} {module : Module}
    (hl : space.load extension none entry = .ok module) :
    (resolver.resolveEntry space extension entry).1 = ((resolver.enter entry).resolve space
      extension (some entry) module.dependencies).1.leave := by
  rw [Resolver.resolveEntry, hl]
  dsimp only
  rcases (resolver.enter entry).resolve space extension (some entry) module.dependencies
    with ⟨after, error | inlined⟩ <;> rfl

/-- However a walk ends, if it has the depth that it needs, it inlined modules in order. -/
theorem Outcome.exists_emit {depth : Nat} {importer : Option Path} {paths : List Path}
    {ending : Resolver × Except Error Inlined} (rooted : space.cwd.isAbsolute = true)
    (hd : space.fileNames < depth)
    (h : Outcome space extension depth importer paths resolver ending) :
    ∃ modules, ending.1 = resolver.emit modules ∧ InOrder resolver.visited modules ∧
      ∀ module ∈ modules, space.load extension none module.path = .ok module := by
  cases h with
  | emission he => exact ⟨_, rfl, he.inOrder, he.loaded⟩
  | failure hf => exact ⟨_, rfl, hf.inOrder, hf.loaded⟩
  | exhausted hx hlen =>
    have := hx.length_le rooted
    omega

/-- Modules that are inlined in order are added. -/
theorem adds_emit (hcall : ∀ path, call ≠ .visit path) (horder : InOrder resolver.visited modules)
    (hload : ∀ module ∈ modules, space.load extension none module.path = .ok module) :
    call.Adds space extension resolver (resolver.emit modules) modules where
  inProgress_eq := rfl
  order_eq := rfl
  mem_visited path := by simp [hcall path]
  loaded := hload
  inOrder := horder

/-- A path that is marked as visited adds no module. -/
theorem adds_visit (path : Path) :
    (Call.visit path).Adds space extension resolver (resolver.visit path) [] where
  inProgress_eq := inProgress_visit resolver path
  order_eq := by rw [order_visit]; simp
  mem_visited other := by simp [eq_comm]
  loaded := nofun
  inOrder := trivial

/-- Every call adds some modules, whether it fails or not. -/
theorem Call.exists_adds (extension : String) (rooted : space.cwd.isAbsolute = true)
    (call : Call) (resolver : Resolver) :
    ∃ modules, call.Adds space extension resolver (call.run space extension resolver) modules := by
  cases call with
  | visit path => exact ⟨[], adds_visit path⟩
  | resolve importer paths =>
    have hout : Outcome space extension _ importer paths resolver _ :=
      resolve_outcome importer paths resolver
    obtain ⟨modules, hm, horder, hload⟩ := hout.exists_emit rooted (Nat.lt_succ_self _)
    rw [run, hm]
    exact ⟨modules, adds_emit nofun horder hload⟩
  | resolveEntry entry =>
    rw [run]
    cases hl : space.load extension none entry with
    | error error =>
      have hnone : (Call.resolveEntry entry).Adds space extension resolver (resolver.emit []) [] :=
        adds_emit nofun trivial nofun
      rw [resolveEntry_of_load_error hl]
      rw [emit_nil] at hnone
      exact ⟨[], hnone⟩
    | ok module =>
      have hout : Outcome space extension _ (some entry) module.dependencies
        (resolver.enter entry) _ := resolve_outcome _ _ _
      obtain ⟨modules, hm, horder, hload⟩ := hout.exists_emit rooted (Nat.lt_succ_self _)
      rw [resolveEntry_of_load hl, hm, leave_emit_enter]
      exact ⟨modules, adds_emit nofun horder hload⟩

/-- What a call adds keeps a resolver consistent. -/
theorem Consistent.of_adds (h : before.Consistent)
    (ha : call.Adds space extension before after modules) : after.Consistent where
  idle := ha.inProgress_eq.trans h.idle
  nodup := by
    obtain ⟨hnodup, hnew⟩ := ha.inOrder.nodup
    rw [ha.order_eq]
    refine List.nodup_append.2 ⟨h.nodup, hnodup, ?_⟩
    rintro path ho _ hp rfl
    obtain ⟨module, hm, rfl⟩ := List.mem_map.1 hp
    exact hnew module hm (h.order_subset ho)
  order_subset path hp := by
    rw [ha.order_eq] at hp
    rcases List.mem_append.1 hp with ho | hm
    · exact (ha.mem_visited path).2 (.inl (h.order_subset ho))
    · exact (ha.mem_visited path).2 (.inr (.inl hm))

end

/-- After one call more. -/
theorem afterCalls_concat (extension : String) (calls : List (Workspace × Call))
    (space : Workspace) (call : Call) : afterCalls extension (calls ++ [(space, call)]) =
      call.run space extension (afterCalls extension calls) := by
  rw [afterCalls, List.foldl_append]
  rfl

/-- A resolver is consistent after any calls. -/
theorem consistent_afterCalls (extension : String) {calls : List (Workspace × Call)}
    (rooted : ∀ turn ∈ calls, turn.1.cwd.isAbsolute = true) :
    (afterCalls extension calls).Consistent := by
  induction calls using List.reverseRecOn with
  | nil => exact ⟨rfl, .nil, List.nil_subset _⟩
  | append_singleton calls turn ih =>
    obtain ⟨hcalls, hturn⟩ := List.forall_mem_append.1 rooted
    obtain ⟨modules, ha⟩ := turn.2.exists_adds extension
      (hturn turn (List.mem_singleton_self turn)) (afterCalls extension calls)
    rw [afterCalls_concat]
    exact (ih hcalls).of_adds ha

/-- After any calls to a new resolver, however each of them ended and whatever happened to the files
in between, nothing is in progress, and the order has each path once and only visited ones. The last
call has only added to it: modules that it loaded, none of them before all that they import was
visited. -/
theorem consistent_through_calls (extension : String) {calls : List (Workspace × Call)}
    {space : Workspace} {call : Call}
    (rooted : ∀ turn ∈ calls ++ [(space, call)], turn.1.cwd.isAbsolute = true) :
    (afterCalls extension (calls ++ [(space, call)])).Consistent ∧
    (afterCalls extension calls).order <+: (afterCalls extension (calls ++ [(space, call)])).order ∧
    (afterCalls extension calls).visited ⊆
      (afterCalls extension (calls ++ [(space, call)])).visited ∧
    ∃ modules, call.Adds space extension (afterCalls extension calls)
      (afterCalls extension (calls ++ [(space, call)])) modules := by
  have hspace := rooted (space, call) (by simp)
  obtain ⟨modules, ha⟩ := call.exists_adds extension hspace (afterCalls extension calls)
  rw [← afterCalls_concat] at ha
  exact ⟨consistent_afterCalls extension rooted, ⟨_, ha.order_eq.symm⟩,
    fun path hp => (ha.mem_visited path).2 (.inl hp), modules, ha⟩

/-- A call that meets a cycle, one that misses a module when it has inlined another one, and a path
that is marked as visited. -/
def troubled : List (Workspace × Call) :=
  [(.knot, .resolveEntry "/w/a.js"),
    (.ofSources [("a.js", "import b from './b';\nimport e from './e';"), ("b.js", "var b = 1;")],
      .resolveEntry "/w/a.js"),
    (.knot, .visit "/w/e.js")]

/-- After these calls the resolver has kept the module that was inlined, and inlines the other ones
of the diamond behind it. -/
theorem consistent_through_calls_troubled :
    (∀ turn ∈ troubled ++ [(.diamond, .resolve none ["/w/a.js"])],
      turn.1.cwd.isAbsolute = true) ∧
    afterCalls ".js" troubled = ⟨["/w/b.js", "/w/e.js"], ["/w/b.js"], []⟩ ∧
    afterCalls ".js" (troubled ++ [(.diamond, .resolve none ["/w/a.js"])]) =
      ⟨["/w/b.js", "/w/e.js", "/w/d.js", "/w/c.js", "/w/a.js"],
        ["/w/b.js", "/w/d.js", "/w/c.js", "/w/a.js"], []⟩ ∧
    Consistent ⟨["/w/b.js", "/w/e.js", "/w/d.js", "/w/c.js", "/w/a.js"],
      ["/w/b.js", "/w/d.js", "/w/c.js", "/w/a.js"], []⟩ ∧
    ∃ modules, (Call.resolve none ["/w/a.js"]).Adds .diamond ".js"
      ⟨["/w/b.js", "/w/e.js"], ["/w/b.js"], []⟩
      ⟨["/w/b.js", "/w/e.js", "/w/d.js", "/w/c.js", "/w/a.js"],
        ["/w/b.js", "/w/d.js", "/w/c.js", "/w/a.js"], []⟩ modules := by
  have rooted : ∀ turn ∈ troubled ++ [(.diamond, .resolve none ["/w/a.js"])],
      turn.1.cwd.isAbsolute = true := by decide +kernel
  have hbefore : afterCalls ".js" troubled = ⟨["/w/b.js", "/w/e.js"], ["/w/b.js"], []⟩ := by
    decide +kernel
  have hafter : afterCalls ".js" (troubled ++ [(.diamond, .resolve none ["/w/a.js"])]) =
      ⟨["/w/b.js", "/w/e.js", "/w/d.js", "/w/c.js", "/w/a.js"],
        ["/w/b.js", "/w/d.js", "/w/c.js", "/w/a.js"], []⟩ := by
    rw [afterCalls_concat, hbefore]
    decide +kernel
  obtain ⟨hconsistent, -, -, hadds⟩ := consistent_through_calls ".js" rooted
  rw [hafter] at hconsistent hadds
  rw [hbefore] at hadds
  exact ⟨rooted, hbefore, hafter, hconsistent, hadds⟩

end Resolver

end Bundler
