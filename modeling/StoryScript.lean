import StoryScript.HostCall
import StoryScript.Main
import StoryScript.Proofs.Narration.Transcript
import StoryScript.Proofs.Nesting.Script
import StoryScript.Proofs.Row.Play
import StoryScript.Proofs.Writer.RoundTrip
import StoryScript.Proofs.Waiting.Basic
import StoryScript.Proofs.Waiting.Count
import StoryScript.Proofs.Waiting.Idle
import StoryScript.Proofs.Course.Basic
import StoryScript.Proofs.Course.Limit
import StoryScript.Proofs.Json.Number
import StoryScript.Proofs.Json.Text
import StoryScript.Proofs.Json.Document
import StoryScript.Proofs.Document.Call
import StoryScript.Proofs.Document.Command
import StoryScript.Proofs.Document.Script
import StoryScript.Proofs.Beat.Scope
import StoryScript.Proofs.Beat.Pass
import StoryScript.Proofs.Beat.Replay
import StoryScript.Proofs.Halting.Record
import StoryScript.Proofs.Console
import StoryScript.Proofs.Log
import StoryScript.Proofs.Call.Reader
import StoryScript.Proofs.Lines.Acceptance
import StoryScript.Proofs.Nesting.Reindent
import StoryScript.Proofs.WellFormed.Script
import StoryScript.Proofs.Document.Transcript
import StoryScript.Proofs.Document.Store
import StoryScript.Proofs.Nesting.Renumber
import StoryScript.Proofs.Nesting.Reword
import StoryScript.Proofs.Writer.Dialogue
import StoryScript.Proofs.Condition.Join
import StoryScript.Proofs.Condition.Comparison
import StoryScript.Proofs.WellFormed.Speaker
import StoryScript.Proofs.Call.Fault
import StoryScript.Proofs.Value
import StoryScript.Proofs.Beat.Echo
import StoryScript.Proofs.Text.Clauses
import StoryScript.Proofs.Nesting.Measure
