import Reshape.Main
import Reshape.Template.Trace
import Reshape.Proofs.AuthorizationHeader
import Reshape.Proofs.CellLines
import Reshape.Proofs.CoherentMerge
import Reshape.Proofs.ConcealedCredentials
import Reshape.Proofs.ConservedLeaves
import Reshape.Proofs.Cutting
import Reshape.Proofs.EntryOrder
import Reshape.Proofs.FirstFault
import Reshape.Proofs.GroupFusion
import Reshape.Proofs.IssueAddress
import Reshape.Proofs.JoinedSequences
import Reshape.Proofs.KeyOrder
import Reshape.Proofs.MergeReading
import Reshape.Proofs.NumberConversion
import Reshape.Proofs.OutputErasure
import Reshape.Proofs.PrintedDocuments
import Reshape.Proofs.Provenance
import Reshape.Proofs.QueryReading
import Reshape.Proofs.ReadingOrder
import Reshape.Proofs.RepeatedMerge
import Reshape.Proofs.ResourcePath
import Reshape.Proofs.RewrittenEntries
import Reshape.Proofs.SettingSeparators
import Reshape.Proofs.SourceVisibility
import Reshape.Proofs.Visits
