import Workboard.Json.Number

/-!
Metrics as lines of text: for each family its help and its type, and for each sample its value.
-/

namespace Workboard.Metrics

open Json

inductive Kind where
  | counter
  | gauge

def Kind.name : Kind → String
  | .counter => "counter"
  | .gauge => "gauge"

structure Family where
  name : String
  kind : Kind
  help : String

structure Sample where
  name : String
  labels : List (String × String)
  value : Number

def Family.lines (f : Family) : List String :=
  ["# HELP " ++ f.name ++ " " ++ f.help, "# TYPE " ++ f.name ++ " " ++ f.kind.name]

def labelText (label : String × String) : String := label.1 ++ "=\"" ++ label.2 ++ "\""

def Sample.line (s : Sample) : String :=
  let labels :=
    if s.labels.isEmpty then "" else "\x7b" ++ ",".intercalate (s.labels.map labelText) ++ "\x7d"
  s.name ++ labels ++ " " ++ String.ofList s.value.chars

def backlog : Family := ⟨"outbox_backlog_total", .gauge, "未处理的发件箱事件数"⟩

def backlogAge : Family :=
  ⟨"outbox_oldest_pending_age_seconds", .gauge, "最早未处理发件箱事件的等待秒数"⟩

def outboxEvents : Family := ⟨"outbox_events_total", .counter, "按结果统计的发件箱事件数"⟩

def connections : Family := ⟨"hub_connections", .gauge, "当前实时连接数"⟩

def dropped : Family := ⟨"hub_messages_dropped_total", .counter, "因队列已满丢弃的消息数"⟩

def slowConsumers : Family :=
  ⟨"hub_slow_consumers_closed_total", .counter, "因持续消费过慢被关闭的连接数"⟩

def families : List Family := [backlog, backlogAge, outboxEvents, connections, dropped, slowConsumers]

/-- Everything that is known of the families and the samples. -/
def exposition (samples : List Sample) : List String :=
  families.flatMap Family.lines ++ samples.map Sample.line

end Workboard.Metrics
