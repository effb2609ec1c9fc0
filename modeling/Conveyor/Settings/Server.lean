import Conveyor.Event.Level
import Conveyor.Settings.Loader

/-!
# The settings of the server

Everything that can be configured, with the variables and the defaults:

| Variable | Default |
|---|---|
| `HOST` | `0.0.0.0` |
| `PORT` | `3000` |
| `REQUEST_TIMEOUT_SECS` | `30` |
| `SHUTDOWN_TIMEOUT_SECS` | `5` |
| `LOG_PIPELINE_QUEUE_SIZE` | `256` |
| `LOG_PIPELINE_MIN_LEVEL` | `INFO` |
| `LOG_PIPELINE_RECENT_CAPACITY` | `200` |
| `LOG_PIPELINE_FORWARD_URL` | unset |
| `UGC_QUEUE_SIZE` | `256` |
| `UGC_WORKERS` | `4` |
| `UGC_BANNED_TERMS` | `spam,scam` |
-/

namespace Conveyor.Settings

/-- The settings of the pipeline of log events. -/
structure Pipeline where
  /-- How many events wait at most. -/
  queueSize : Nat
  /-- Events below this level are accepted and left out. -/
  minLevel : Level
  /-- How many of the latest events are kept for reading. -/
  recentCapacity : Nat
  /-- Where every event is forwarded to, if anywhere. -/
  forwardUrl : Option String
  deriving DecidableEq

/-- The settings of the moderation of content. -/
structure Moderation where
  /-- How many jobs wait at most. -/
  queueSize : Nat
  /-- How many workers judge jobs. -/
  workers : Nat
  /-- The terms that content must not contain, as configured. -/
  bannedTerms : List String
  deriving DecidableEq

/-- The settings of the server. -/
structure Server where
  /-- The address it listens on. -/
  host : String
  /-- The port it listens on. -/
  port : Nat
  /-- The seconds after which a request is given up. -/
  requestTimeout : Nat
  /-- The seconds that each step of a shutdown may take. -/
  shutdownTimeout : Nat
  /-- The pipeline of log events. -/
  pipeline : Pipeline
  /-- The moderation of content. -/
  moderation : Moderation
  deriving DecidableEq

/-- The loader of variables without a stem. -/
def serverLoader : Loader := .forStem ""

/-- The loader of variables about the pipeline. -/
def pipelineLoader : Loader := .forStem "LOG_PIPELINE"

/-- The loader of variables about moderation. -/
def moderationLoader : Loader := .forStem "UGC"

/-- The settings that an environment makes. -/
def Server.load (env : Environment) : Reading Server := do
  let port ← serverLoader.natural env .word16 "PORT" 3000
  let requestTimeout ← serverLoader.natural env .word64 "REQUEST_TIMEOUT_SECS" 30
  let shutdownTimeout ← serverLoader.natural env .word64 "SHUTDOWN_TIMEOUT_SECS" 5
  let queueSize ← pipelineLoader.natural env .word64 "QUEUE_SIZE" 256
  let recentCapacity ← pipelineLoader.natural env .word64 "RECENT_CAPACITY" 200
  let jobQueueSize ← moderationLoader.natural env .word64 "QUEUE_SIZE" 256
  let workers ← moderationLoader.natural env .word64 "WORKERS" 4
  return {
    host := serverLoader.text env "HOST" "0.0.0.0"
    port, requestTimeout, shutdownTimeout
    pipeline := {
      queueSize, recentCapacity
      minLevel := .parse (pipelineLoader.text env "MIN_LEVEL" "INFO")
      forwardUrl := pipelineLoader.text? env "FORWARD_URL" }
    moderation := {
      queueSize := jobQueueSize, workers
      bannedTerms := moderationLoader.list env "BANNED_TERMS" "spam,scam" } }

end Conveyor.Settings
