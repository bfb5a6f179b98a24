import SoloDock.Deploy.Retained
import SoloDock.Docker.Framed
import SoloDock.Docker.Gate
import SoloDock.Docker.Redacted
import SoloDock.Docker.Resume
import SoloDock.Apps.Authorised
import SoloDock.Apps.Gone
import SoloDock.Apps.Names
import SoloDock.Apps.Slugs
import SoloDock.Recovery.Removal
import SoloDock.Recovery.Rejected
import SoloDock.Webhook.Revoked
import SoloDock.Auth.Sessions
import SoloDock.Registry.Confined
import SoloDock.Images.Exact
import SoloDock.Deploy.History
import SoloDock.Docker.Steady
import SoloDock.Store.Environment
import SoloDock.Store.Replay
import SoloDock.Poll.Jitter
import SoloDock.Poll.Returned
import SoloDock.Poll.Wakes
import SoloDock.Webhook.Rate
import SoloDock.Webhook.Spelling
