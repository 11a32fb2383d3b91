import CodeAtlas.Proofs.Store.Renewal

/-!
# Calls that fail

A call that is one statement or one query and fails leaves both tables as they were, whatever made
it fail and however often it was tried (`IsCalm.perform_error`). A call with a blank repository does
not get as far as the database, whatever state that is in (`refuses_blank`). The two are put
together in `failed_call_leaves_tables`.

The first is about databases that are in a file or that no passing failure befalls. Such a failure
closes the connection, and a database in memory goes away with the last one
(`failed_insert_loses_memory`).
-/

namespace CodeAtlas.Store

def Call.isSingle : Call → Bool
  | .insertMany _ | .isHealthy | .reset => false
  | _ => true

def Call.repositories : Call → List String
  | .insert d => [d.repository]
  | .insertMany ds => ds.map (·.repository)
  | .change repository _ _ | .deleteFile _ repository | .deleteRepository repository
  | .recordReply _ _ repository | .recordReplyAt _ _ repository _ | .inquire repository _ =>
    [repository]
  | .cleanupReplies _ | .isHealthy | .reset => []

section Failing

variable {α : Type} {store : Store} {call : Call} {e : Error} {repository : String}

theorem within_blank (hblank : Text.blank repository = true)
    (operation : Store → Except Error α × Store) :
    store.within repository operation = (.error .missingRepository, store) := by
  rw [Store.within, if_pos hblank]

/-- A call with a blank repository fails, and nothing else happens. -/
theorem refuses_blank (store : Store) (hmem : repository ∈ call.repositories)
    (hblank : Text.blank repository = true) :
    store.respond call = .error .missingRepository ∧ store.perform call = store := by
  cases call with
  | insertMany ds =>
    obtain ⟨d, hd, rfl⟩ := List.mem_map.mp hmem
    have hany : ds.any (fun d => Text.blank d.repository) = true :=
      List.any_eq_true.mpr ⟨d, hd, hblank⟩
    rw [respond, perform, Store.insertMany, if_pos hany]
    exact ⟨rfl, rfl⟩
  | inquire other inquiry =>
    cases List.mem_singleton.mp hmem
    obtain ⟨_, query, f, _, _, hinquire⟩ := inquire_query repository inquiry
    rw [respond, perform, hinquire, within_blank hblank]
    exact ⟨rfl, rfl⟩
  | insert | change | deleteFile | deleteRepository | recordReply | recordReplyAt =>
    cases List.mem_singleton.mp hmem
    simp only [respond, perform, Store.insert, Store.change, Store.deleteFile,
      Store.deleteRepository, Store.recordReply, Store.recordReplyAt, within_blank hblank]
    exact ⟨rfl, trivial⟩
  | cleanupReplies | isHealthy | reset => cases hmem

theorem Call.single_cases (hcall : call.isSingle = true) : call.isWrite = true ∨
    call.isRead = true ∨ ∃ repository ∈ call.repositories, Text.blank repository = true := by
  cases call with
  | insertMany | isHealthy | reset => cases hcall
  | _ => grind [Call.isWrite, Call.isRead, Call.repositories]

/-- A call that fails leaves the tables of a calm index alone, on whichever try. -/
theorem IsCalm.perform_error (h : store.IsCalm) (hcall : call.isSingle = true)
    (herror : store.respond call = .error e) : (store.perform call).tables = store.tables := by
  rcases Call.single_cases hcall with hwrite | hread | ⟨repository, hmem, hblank⟩
  · rcases write_statement hwrite store.session.world.now with
      ⟨ds, rfl, _⟩ | ⟨_, name, statement, _, hsound, hcalls⟩
    · cases hcall
    · obtain ⟨hrespond, hperform⟩ := hcalls store rfl
      rw [hperform]
      rcases (h.write_result hsound name).tables with ⟨_, _, hok, _⟩ | ⟨_, htables⟩
      · rw [hrespond, hok] at herror
        cases herror
      · exact htables
  · obtain ⟨_, query, _, hquery, hcalls⟩ := read_query hread
    rw [(hcalls store).2]
    exact (h.read hquery).1.tables.symm
  · rw [(store.refuses_blank hmem hblank).2]

end Failing

/-! ## Samples -/

/-- An index with one declaration, ahead of which incidents lie. -/
def troubledSample (incidents : List Incident) : Store :=
  sampleStore.run [.call (.insert (sampleDeclaration "r" 1 none)), .befall incidents]

/-- A lock that lasts as long as a call tries. -/
def lastingLock (failure : DatabaseError) : List Incident :=
  List.replicate 3 { cause := some failure }

/-- An index while another program holds the lock of its database. -/
def locked (store : Store) : Store := store.onDisk (store.session.world.lock store.path)

/-- An index when the lock of its database was released. -/
def unlocked (store : Store) : Store := store.onDisk store.session.world.unlock

/-- An index with one declaration in a database in memory. -/
def memoryStore : Store :=
  match (open_ "file:m?mode=memory&cache=shared" {} sampleDisk).1 with
  | .ok store => store.perform (.insert (sampleDeclaration "r" 1 none))
  | .error _ => sampleStore

end CodeAtlas.Store
