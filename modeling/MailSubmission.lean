import MailSubmission.Main
import MailSubmission.Reply.Octets
import MailSubmission.Proofs.History
import MailSubmission.Proofs.RunEndings
import MailSubmission.Proofs.BodyTransparency
import MailSubmission.Proofs.Conduct
import MailSubmission.Proofs.BodySending
import MailSubmission.Proofs.BodyDelivery
import MailSubmission.Proofs.ClientConduct
import MailSubmission.Proofs.Operations
import MailSubmission.Proofs.Lifetime
import MailSubmission.Proofs.BodyTruncation
import MailSubmission.Proofs.Dialogue
import MailSubmission.Proofs.ClientDialogue
import MailSubmission.Proofs.Attempts
import MailSubmission.Proofs.Accounts
import MailSubmission.Proofs.Submissions
import MailSubmission.Proofs.MailGrammar
import MailSubmission.Proofs.Verdict
import MailSubmission.Proofs.Interruptions
import MailSubmission.Proofs.Cancellation
import MailSubmission.Proofs.TextTransparency
import MailSubmission.Proofs.RawLines
import MailSubmission.Proofs.LineDecoding
import MailSubmission.Proofs.ReplyScanning
import MailSubmission.Proofs.ReplyEncoding
import MailSubmission.Proofs.ReplySegmentation
import MailSubmission.Proofs.ReplyFolding
import MailSubmission.Proofs.ReplyExtent
import MailSubmission.Proofs.ReplyReading
import MailSubmission.Proofs.DeviationCounts
import MailSubmission.Proofs.Milestones
import MailSubmission.Proofs.Retries
import MailSubmission.Proofs.Exchanges
import MailSubmission.Proofs.CommandOrder
import MailSubmission.Proofs.Preconditions
import MailSubmission.Proofs.ConnectionReuse
import MailSubmission.Proofs.EnvelopeLines
import MailSubmission.Proofs.NotificationOffers
import MailSubmission.Proofs.Watching
import MailSubmission.Proofs.Representation
import MailSubmission.Proofs.FrozenWire
import MailSubmission.Proofs.FrozenClient
import MailSubmission.Proofs.ClientStories
import MailSubmission.Proofs.CommandReading
import MailSubmission.Proofs.CommandInjection
import MailSubmission.Proofs.LastReply
import MailSubmission.Proofs.FailureReports
import MailSubmission.Proofs.UnreadOctets
import MailSubmission.Proofs.TimeoutReports
import MailSubmission.Proofs.AddressReading
import MailSubmission.Proofs.DsnPersistence
import MailSubmission.Proofs.ReadRetries
import MailSubmission.Proofs.ReadTimeouts
import MailSubmission.Proofs.StreamCounts
import MailSubmission.Proofs.CollapsedReplies
import MailSubmission.Proofs.DecoderReuse
import MailSubmission.Proofs.SizeLimits
import MailSubmission.Proofs.UniqueNames
