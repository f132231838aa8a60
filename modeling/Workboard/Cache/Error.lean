/-!
Why a value could not be cached or read from the cache.
-/

namespace Workboard

inductive CodecError where
  | encode (message : String)
  | decode (message : String)
  /-- A frame that is shorter or longer than it declares. -/
  | truncated (expected actual : Nat)
  | oversized (length : Nat)
  deriving DecidableEq

def CodecError.message : CodecError → String
  | .encode message => "编码失败: " ++ message
  | .decode message => "解码失败: " ++ message
  | .truncated expected actual =>
    "数据帧不完整: 期望 " ++ toString expected ++ " 字节, 实际 " ++ toString actual ++ " 字节"
  | .oversized length => "数据帧过大: " ++ toString length ++ " 字节"

inductive CacheError where
  | store (message : String)
  | codec (e : CodecError)
  deriving DecidableEq

def CacheError.message : CacheError → String
  | .store message => "缓存存储错误: " ++ message
  | .codec e => "缓存编解码错误: " ++ e.message

end Workboard
