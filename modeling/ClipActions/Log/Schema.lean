import ClipActions.Text.Basic

/-! The order in which the fields of known events are shown. -/
namespace ClipActions.Log.Schema

/-- The first fields of an event of any other name. -/
def defaultOrder : List Text := ["ts", "level", "message"]

/-- The fields that come first in the events of a name. -/
def orders : List (Text × List Text) := [
  ("app_start", ["ts", "level", "command", "daemon_mode", "log_file"]),
  ("app_stop", ["ts", "level", "command", "reason", "exit_code", "uptime_ms", "error_type",
    "error"]),
  ("registry_built", ["ts", "level", "builtin_count", "plugin_count", "rejected_count",
    "plugin_dir"]),
  ("plugin_load_failed", ["ts", "level", "plugin_file", "error_type", "error"]),
  ("plugin_skipped", ["ts", "level", "plugin_file", "reason"]),
  ("plugin_conflict", ["ts", "level", "plugin_file", "action", "conflicts"]),
  ("action_unknown", ["ts", "level", "action", "available"]),
  ("safe_mode_decision", ["ts", "level", "decision", "provider", "daemon_mode", "yes"]),
  ("action_run", ["ts", "level", "run_id", "action", "status", "source", "trigger", "provider",
    "model", "latency_ms", "input_chars", "output_chars", "replay_of", "error"]),
  ("history_write_failed", ["ts", "level", "history_file", "error_type", "error"]),
  ("history_line_skipped", ["ts", "level", "history_file", "line_number", "error"]),
  ("ai_request", ["ts", "level", "provider", "model", "endpoint", "input_chars",
    "has_system_prompt"]),
  ("ai_response", ["ts", "level", "provider", "model", "latency_ms", "output_chars",
    "input_tokens", "output_tokens"]),
  ("ai_error", ["ts", "level", "provider", "model", "latency_ms", "error_type", "error",
    "http_status"]),
  ("agent_request_error", ["ts", "level", "method", "path", "socket_path", "error_type",
    "error"])]

def order (event : Text) : List Text := (orders.lookup event).getD defaultOrder

end ClipActions.Log.Schema
