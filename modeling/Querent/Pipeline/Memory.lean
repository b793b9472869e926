import Querent.Limiter
import Querent.Pipeline.Basic
import Querent.Request.Store

/-! A pipeline whose limiter and store are kept in memory. All other calls go to collaborators. -/
namespace Querent.Pipeline

/-- The limiter and the requests. -/
structure Memory where
  limiter : Limiter
  store : Store

/-- The two clocks of a call: milliseconds that never go back, and the time of day. -/
structure Now where
  milliseconds : Nat
  moment : Moment

/-- Those a pipeline works with beside its memory, as functions of what they are asked. -/
structure Collaborators where
  isOwner : (user workspace : Int) → Except Error Bool
  dataSource : (workspace : Int) → Except Error (Option DataSource)
  snapshot : (workspace : Int) → Except Error Snapshot
  model : Llm.Ask → Except Error String
  execute : Connection → String → (timeoutMs : Nat) → Except ExecutionFault (List Record)

/-- Answers a call, out of memory or by a collaborator. -/
def Collaborators.answer (w : Collaborators) (now : Now) (response : String) :
    (c : Call) → Memory → c.Reply × Memory
  | .allow workspace, m =>
    let (allowed, limiter) := m.limiter.check workspace now.milliseconds
    (allowed, { m with limiter })
  | .create user workspace prompt, m =>
    let (r, store) := m.store.create user workspace prompt now.moment
    (.ok r, { m with store })
  | .complete id update, m =>
    let (r, store) := m.store.complete id update now.moment
    (r, { m with store })
  | .find workspace id, m => (.ok (m.store.find workspace id), m)
  | .latest workspace, m => (.ok (m.store.latest workspace), m)
  | .list workspace limit, m => (.ok (m.store.list workspace limit), m)
  | .isOwner user workspace, m => (w.isOwner user workspace, m)
  | .dataSource workspace, m => (w.dataSource workspace, m)
  | .snapshot workspace, m => (w.snapshot workspace, m)
  | .model ask, m => (w.model ask, m)
  | .execute connection sql timeoutMs, m => (w.execute connection sql timeoutMs, m)
  | .freshResponse, m => (response, m)

end Querent.Pipeline
