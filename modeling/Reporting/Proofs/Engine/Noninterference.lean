import Reporting.Engine.Basic
import Reporting.Proofs.Store.Fetch
import Reporting.Proofs.Store.History

/-!
# Reports of agents do not show what others store

A user's share of a history is what is left of it, at one source, when every record of another
owner is deleted: the removals, and the additions of the user's own records.  The records that a
source holds for a user depend on the share alone (`filter_heldBy`), although the numbers of the
rows and the batches they came in do not.

So an agent loads the same records after two histories with the same shares, and everything after
loading is a function of the records: `sameOutcome_generate_of_share` compares two engines.
-/

namespace Reporting

/-- Whether an event matters to a user: a removal does, and an addition of the user's own
record. -/
def TableEvent.concerns (user : String) : TableEvent → Bool
  | .added record => (Scope.agent user).canSee record.owner?
  | .cleared => true

/-- What happens to the records of a source by some calls, without the records of other owners. -/
def shareOf (user : String) (b : BuiltIn) (calls : List StoreCall) : List TableEvent :=
  (eventsOf b calls).filter (TableEvent.concerns user)

/-- Records of other owners may be deleted before the events or after them. -/
theorem TableEvent.foldl_replay_filter (user : String) (events : List TableEvent)
    (held : List Json) :
    (events.filter (concerns user)).foldl replay
        (held.filter fun record => (Scope.agent user).canSee record.owner?)
      = (events.foldl replay held).filter fun record =>
          (Scope.agent user).canSee record.owner? := by
  induction events generalizing held with
  | nil => rfl
  | cons event rest ih =>
      cases event with
      | cleared => exact ih []
      | added record =>
          have hnext := ih (held ++ [record])
          rw [List.filter_append] at hnext
          by_cases hown : (Scope.agent user).canSee record.owner? = true
          · rw [List.filter_singleton, hown, cond_true] at hnext
            rw [List.filter_cons_of_pos (by exact hown)]
            exact hnext
          · rw [List.filter_singleton, Bool.eq_false_iff.mpr hown, cond_false,
              List.append_nil] at hnext
            rw [List.filter_cons_of_neg (by exact hown)]
            exact hnext

/-- **What is held for a user is told by the user's share.** -/
theorem filter_heldBy (user : String) (b : BuiltIn) (calls : List StoreCall) :
    (heldBy b calls).filter (fun record => (Scope.agent user).canSee record.owner?)
      = (shareOf user b calls).foldl TableEvent.replay [] :=
  (TableEvent.foldl_replay_filter user (eventsOf b calls) []).symm

/-- After histories with the same share an agent loads the same records. -/
theorem load_eq_of_share {calls calls' : List StoreCall} {db db' : Database} {user : String}
    (hrun : Database.empty.runAll calls = .ok db) (hrun' : Database.empty.runAll calls' = .ok db')
    (hroom : StaysNumbered calls) (hroom' : StaysNumbered calls') {b : BuiltIn}
    (hshare : shareOf user b calls = shareOf user b calls') :
    RecordStore.load db (.builtIn b) (.agent user)
      = RecordStore.load db' (.builtIn b) (.agent user) := by
  rw [load_eq_reread hrun hroom, load_eq_reread hrun' hroom', filter_heldBy, filter_heldBy, hshare]

/-- Two reports agree if they differ at most in when and by whom they were made, and in their
ids. -/
structure Report.Agrees (report other : Report) : Prop where
  data : report.data = other.data
  columns : report.columns = other.columns
  rowCount : report.rowCount = other.rowCount
  config : report.config = other.config

/-- Two requests for a report end alike: with reports that agree, or with the same complaints
about the configuration. -/
inductive SameOutcome : Result Report → Result Report → Prop
  | reported {report other : Report} (agrees : report.Agrees other) :
      SameOutcome (.ok report) (.ok other)
  | rejected (messages : List String) :
      SameOutcome (.error (.configurationInvalid messages))
        (.error (.configurationInvalid messages))

namespace Engine

/-- Engines with the same catalog that compute the same rows end alike. -/
theorem sameOutcome_generate {first second : Engine} {config : Configuration} {scope : Scope}
    (hcatalog : first.catalog = second.catalog)
    (hrows : first.rows config scope = second.rows config scope) (stamp stamp' : Stamp) :
    SameOutcome (first.generate config scope stamp) (second.generate config scope stamp') := by
  have hvalidate : first.validate config = second.validate config := by
    unfold validate
    rw [hcatalog]
  unfold generate generateUnchecked Report.generate
  rw [hvalidate]
  unfold ValidationResult.toResult
  by_cases hvalid : (second.validate config).isValid = true
  · by_cases hrequired : config.requiredIssues.isEmpty = true
    · simp only [hvalid, hrequired, if_true, bind, Except.bind]
      exact .reported ⟨hrows, rfl, congrArg List.length hrows, rfl⟩
    · simp only [hvalid, hrequired, if_true, bind, Except.bind]
      exact .rejected _
  · simp only [hvalid, bind, Except.bind]
    exact .rejected _

end Engine

/-- **Non-interference.**  Take two engines with the same catalog and the same display conventions,
and a user whose share of their histories is the same at every source.  Whatever else the histories
contain, and however the records came in batches, files and turns, every configuration gives the
user as an agent the same rows, columns and row count, or the same complaints. -/
theorem sameOutcome_generate_of_share {first second : Engine} {calls calls' : List StoreCall}
    {user : String} (hcatalog : first.catalog = second.catalog)
    (hsettings : first.settings = second.settings)
    (hrun : Database.empty.runAll calls = .ok first.database)
    (hrun' : Database.empty.runAll calls' = .ok second.database)
    (hroom : StaysNumbered calls) (hroom' : StaysNumbered calls')
    (hshare : ∀ b, shareOf user b calls = shareOf user b calls')
    (config : Configuration) (stamp stamp' : Stamp) :
    SameOutcome (first.generate config (.agent user) stamp)
      (second.generate config (.agent user) stamp') := by
  refine Engine.sameOutcome_generate hcatalog ?_ stamp stamp'
  have hfetch := RecordStore.fetchAll_congr
    (fun b => load_eq_of_share hrun hrun' hroom hroom' (hshare b)) config.dataSources
  unfold Engine.rows Configuration.rows
  rw [hsettings, hfetch]

/-- Non-interference at a deal that is added alone, and in a batch after somebody else's deal. -/
theorem sameOutcome_generate_of_share_alone_and_batch :
    let mine : Json := .obj [(ownerKey, .str "u")]
    let calls : List StoreCall := [.insertRecord (.builtIn .deals) mine]
    let calls' : List StoreCall :=
      [.insertRecords (.builtIn .deals) [.obj [(ownerKey, .str "v")], mine]]
    let first : Engine :=
      ⟨.memory, ⟨[⟨1, some "u", "\x7b\"agentId\":\"u\"\x7d"⟩], [], [], []⟩, .standard, .default⟩
    let second : Engine :=
      ⟨.memory,
        ⟨[⟨1, some "v", "\x7b\"agentId\":\"v\"\x7d"⟩, ⟨2, some "u", "\x7b\"agentId\":\"u\"\x7d"⟩],
          [], [], []⟩,
        .standard, .default⟩
    Database.empty.runAll calls = .ok first.database ∧
      Database.empty.runAll calls' = .ok second.database ∧
      StaysNumbered calls ∧ StaysNumbered calls' ∧
      (∀ b, shareOf "u" b calls = shareOf "u" b calls') ∧
      ∀ config stamp stamp', SameOutcome (first.generate config (.agent "u") stamp)
        (second.generate config (.agent "u") stamp') := by
  intro mine calls calls' first second
  have hrun : Database.empty.runAll calls = .ok first.database := rfl
  have hrun' : Database.empty.runAll calls' = .ok second.database := rfl
  have hroom : StaysNumbered calls := by
    intro earlier hearlier b
    simp only [calls, List.prefix_cons_iff, List.prefix_nil] at hearlier
    rcases hearlier with rfl | ⟨_, rfl, rfl⟩
    all_goals cases b <;> decide
  have hroom' : StaysNumbered calls' := by
    intro earlier hearlier b
    simp only [calls', List.prefix_cons_iff, List.prefix_nil] at hearlier
    rcases hearlier with rfl | ⟨_, rfl, rfl⟩
    all_goals cases b <;> decide
  have hshare : ∀ b, shareOf "u" b calls = shareOf "u" b calls' := by
    intro b
    cases b <;> rfl
  exact ⟨hrun, hrun', hroom, hroom', hshare,
    sameOutcome_generate_of_share rfl rfl hrun hrun' hroom hroom' hshare⟩

end Reporting
