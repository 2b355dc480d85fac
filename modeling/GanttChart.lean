import GanttChart.Main
import GanttChart.Binary64.Bits
import GanttChart.Proofs.Outcome
import GanttChart.Proofs.Schedule.Change
import GanttChart.Proofs.Text.Prefix
import GanttChart.Proofs.Schedule.Prefix
import GanttChart.Proofs.Schedule.WellFormed
import GanttChart.Proofs.Text.Segments
import GanttChart.Proofs.Svg.ReadBack
import GanttChart.Proofs.Svg.Document
import GanttChart.Proofs.Chart.Actions
import GanttChart.Proofs.Chart.Band
import GanttChart.Proofs.Chart.Painting
import GanttChart.Proofs.Chart.Finding
import GanttChart.Proofs.Chart.Decoration
import GanttChart.Proofs.Chart.Width
import GanttChart.Proofs.Chart.Clock
import GanttChart.Proofs.Chart.Refusal
import GanttChart.Proofs.Chart.Acyclic
import GanttChart.Proofs.Chart.Link
import GanttChart.Proofs.Chart.ScriptLink
import GanttChart.Proofs.Schedule.Source
import GanttChart.Proofs.Schedule.Addition
import GanttChart.Proofs.Schedule.Lookup
import GanttChart.Proofs.Schedule.Spelling
import GanttChart.Proofs.Schedule.Swap
import GanttChart.Proofs.Schedule.Setting
import GanttChart.Proofs.Calendar.Literal
import GanttChart.Proofs.Text.Fields
import GanttChart.Proofs.Schedule.Entry
import GanttChart.Proofs.Schedule.Reference
import GanttChart.Proofs.Chart.ClickLine
import GanttChart.Proofs.Chart.RowOrder
import GanttChart.Proofs.Chart.Tiling
import GanttChart.Proofs.Schedule.Dating
import GanttChart.Proofs.Svg.Character
import GanttChart.Proofs.Svg.Contents
import GanttChart.Proofs.Text.Wrap
import GanttChart.Proofs.Calendar.Label
import GanttChart.Proofs.Schedule.Written
import GanttChart.Proofs.Chart.Characters
import GanttChart.Proofs.Chart.Clicks
import GanttChart.Proofs.Chart.EdgeOrder
import GanttChart.Proofs.Chart.Offset
import GanttChart.Proofs.Text.GreedyWrap
import GanttChart.Proofs.Binary64.Nearest
import GanttChart.Proofs.Chart.TickOffset
import GanttChart.Proofs.Chart.Moving
import GanttChart.Proofs.Chart.Tick
import GanttChart.Proofs.Chart.BackEdge
import GanttChart.Proofs.Calendar.Token
import GanttChart.Proofs.Chart.LinkLanguage
import GanttChart.Proofs.Chart.LinkCharacter
import GanttChart.Proofs.Calendar.Month
import GanttChart.Proofs.Binary64.Whole
import GanttChart.Proofs.Schedule.WholeDuration
import GanttChart.Proofs.Schedule.EndField
import GanttChart.Proofs.Text.Digits
import GanttChart.Proofs.Calendar.Field
import GanttChart.Proofs.Calendar.Parts
import GanttChart.Proofs.Calendar.Form
import GanttChart.Proofs.Calendar.Writing
import GanttChart.Proofs.Calendar.Documented
import GanttChart.Proofs.Binary64.Exact
import GanttChart.Proofs.Binary64.Decimal
import GanttChart.Proofs.Command.Run
import GanttChart.Proofs.Binary64.Error
import GanttChart.Proofs.Chart.Slots
import GanttChart.Proofs.Chart.TickRequest
import GanttChart.Proofs.Binary64.Order
import GanttChart.Proofs.Chart.Course
