import Workboard.Todo.Basic
import Workboard.Outbox.Record
import Workboard.Todo.Mapping
import Workboard.Cache.Error

/-!
Why a unit of work did not commit although its business did not object.
-/

namespace Workboard

inductive UnitOfWorkError where
  | outbox (e : OutboxError)
  | mapping (e : MappingError)
  | cancelled
  deriving DecidableEq

def UnitOfWorkError.message : UnitOfWorkError → String
  | .outbox e => "发件箱错误: " ++ e.message
  | .mapping e => "事件映射失败: " ++ e.message
  | .cancelled => "操作已取消"

end Workboard

/-!
Why a request to the to-do service fails.
-/

namespace Workboard

inductive ServiceError where
  | domain (e : DomainError)
  | notFound (what : String)
  | repository (e : RepositoryError)
  | unitOfWork (e : UnitOfWorkError)
  | cache (e : CacheError)
  | infrastructure (message : String)
  | authentication
  | authorization
  deriving DecidableEq

def ServiceError.message : ServiceError → String
  | .domain e => "领域错误: " ++ e.message
  | .notFound what => "资源未找到: " ++ what
  | .repository e => "仓储错误: " ++ e.message
  | .unitOfWork e => "工作单元错误: " ++ e.message
  | .cache e => "缓存错误: " ++ e.message
  | .infrastructure message => "基础设施错误: " ++ message
  | .authentication => "authentication failed"
  | .authorization => "authorization failed"

end Workboard
