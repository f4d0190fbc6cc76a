import ScriptLowering.Main
import ScriptLowering.Options.Document
import ScriptLowering.Tree.Build
import ScriptLowering.Tree.ToJson
import ScriptLowering.Proofs.Induction
import ScriptLowering.Proofs.Node
import ScriptLowering.Proofs.Outcome
import ScriptLowering.Proofs.Script
import ScriptLowering.Proofs.Block
import ScriptLowering.Proofs.Doubles
import ScriptLowering.Proofs.Nesting
import ScriptLowering.Proofs.Support
import ScriptLowering.Proofs.Record
import ScriptLowering.Proofs.Document
import ScriptLowering.Proofs.Decoding
import ScriptLowering.Proofs.JsonText
import ScriptLowering.Proofs.RoundTrip
import ScriptLowering.Proofs.Bag
import ScriptLowering.Proofs.Unpacking
import ScriptLowering.Proofs.Calling
import ScriptLowering.Proofs.ManagedReading
import ScriptLowering.Proofs.ModeParity
import ScriptLowering.Proofs.Pages
import ScriptLowering.Proofs.Temporaries
import ScriptLowering.Proofs.ExpressionReader
import ScriptLowering.Proofs.Freshness
import ScriptLowering.Proofs.Readability
import ScriptLowering.Proofs.TypeText
import ScriptLowering.Proofs.Numbering
import ScriptLowering.Proofs.Run
import ScriptLowering.Proofs.Literals
import ScriptLowering.Proofs.Ranges
import ScriptLowering.Proofs.Memberwise
import ScriptLowering.Proofs.Signs
import ScriptLowering.Proofs.AccessPath
import ScriptLowering.Proofs.LoopVariable
import ScriptLowering.Proofs.Constructors
import ScriptLowering.Proofs.Precedence
import ScriptLowering.Proofs.CommentEnd
